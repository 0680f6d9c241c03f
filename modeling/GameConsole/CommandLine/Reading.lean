import GameConsole.CommandLine

/-! Reading arguments as options. The value of an option is looked at when the next option, flag or
path comes, or at the end; a value attached to its option is looked at at once. -/

namespace GameConsole.CommandLine

/-- What takes a value. -/
inductive Key
  | exe
  | bios
  | diskImage
  | stopPc
  | maxInstructions
  | stepsPerQuantum
deriving DecidableEq

inductive Flag
  | exeInDiskImage
  | help
deriving DecidableEq

/-- An option after two dashes, without them. -/
def ofLong? : String → Option (Key ⊕ Flag)
  | "bios" => some (.inl .bios)
  | "disk-image" => some (.inl .diskImage)
  | "exe-in-disk-image" => some (.inr .exeInDiskImage)
  | "stop-pc" => some (.inl .stopPc)
  | "max-instructions" => some (.inl .maxInstructions)
  | "steps-per-quantum" => some (.inl .stepsPerQuantum)
  | "help" => some (.inr .help)
  | _ => none

/-- The form of an argument, apart from what it means. -/
inductive Argument
  | plain (text : String)
  /-- Two dashes: what follows is plain. -/
  | separator
  | long (name : String) (value : Option String)
  | short (letters : List Char)
deriving DecidableEq

/-- What stands before and after the first equals sign. -/
def splitValue (cs : List Char) : String × Option String :=
  let name := cs.takeWhile (· ≠ '=')
  let value :=
    match cs.dropWhile (· ≠ '=') with
    | [] => none
    | _ :: rest => some (String.ofList rest)
  (String.ofList name, value)

/-- A dash on its own is plain. -/
def Argument.read (text : String) : Argument :=
  match text.toList with
  | ['-', '-'] => .separator
  | '-' :: '-' :: cs =>
    let (name, value) := splitValue cs
    .long name value
  | '-' :: c :: cs => .short (c :: cs)
  | _ => .plain text

/-- The options as far as they are known. -/
structure Draft where
  exe : Option String := none
  settings : Settings := {}

def requirePath (text : String) : Except UsageError String :=
  if text.isEmpty then .error .missingValue else .ok text

def requireCount (text : String) : Except UsageError Nat :=
  (Numeral.readDecimal UInt64.size text).mapError fun _ => .badValue

def requireWord (text : String) : Except UsageError UInt32 :=
  (Numeral.readWord text).mapError fun _ => .badValue

namespace Draft

def has (d : Draft) : Key → Bool
  | .exe => d.exe.isSome
  | .bios => d.settings.bios.isSome
  | .diskImage => d.settings.diskImage.isSome
  | .stopPc => d.settings.stopPc.isSome
  | .maxInstructions => d.settings.maxInstructions.isSome
  | .stepsPerQuantum => d.settings.stepsPerQuantum.isSome

def put (d : Draft) (text : String) : Key → Except UsageError Draft
  | .exe => return { d with exe := some (← requirePath text) }
  | .bios => return { d with settings.bios := some (← requirePath text) }
  | .diskImage => return { d with settings.diskImage := some (← requirePath text) }
  | .stopPc => return { d with settings.stopPc := some (← requireWord text) }
  | .maxInstructions => return { d with settings.maxInstructions := some (← requireCount text) }
  | .stepsPerQuantum => return { d with settings.stepsPerQuantum := some (← requireCount text) }

/-- A missing value is reported before a repeated option, and that before a bad value. -/
def settle (d : Draft) (key : Key) : Option String → Except UsageError Draft
  | none => .error .missingValue
  | some text => if d.has key then .error .repeated else d.put text key

def raise (d : Draft) : Flag → Except UsageError Draft
  | .help => .error .helpRequested
  | .exeInDiskImage =>
    if d.settings.exeInDiskImage then .error .repeated
    else .ok { d with settings.exeInDiskImage := true }

end Draft

/-- How far the arguments have been read. -/
structure Progress where
  draft : Draft := {}
  /-- The option whose value has not been looked at, and the value if it has come. -/
  pending : Option (Key × Option String) := none
  /-- Whether the separator has come. -/
  plainOnly : Bool := false

namespace Progress

def settled (p : Progress) : Except UsageError Draft :=
  match p.pending with
  | none => .ok p.draft
  | some (key, value) => p.draft.settle key value

def becomes (p : Progress) (draft : Draft) : Progress := { p with draft, pending := none }

/-- An option, with the value attached to it if there is one. -/
def option (p : Progress) (key : Key) : Option String → Except UsageError Progress
  | some text => do
    let draft ← p.settled
    return p.becomes (← draft.settle key (some text))
  | none => do
    let draft ← p.settled
    return { p with draft, pending := some (key, none) }

def flag (p : Progress) (flag : Flag) : Option String → Except UsageError Progress
  | some _ => .error .unwantedValue
  | none => do
    let draft ← p.settled
    return p.becomes (← draft.raise flag)

/-- Letters after one dash. What follows the letter of an option is its value, with or without an
equals sign between them. -/
def cluster (p : Progress) : List Char → Except UsageError Progress
  | 'h' :: _ => p.flag .help none
  | 'i' :: [] => p.option .maxInstructions none
  | 'i' :: '=' :: value => p.option .maxInstructions (some (String.ofList value))
  | 'i' :: value => p.option .maxInstructions (some (String.ofList value))
  | _ => .error .unexpected

/-- Whether the path of the executable has come. -/
def hasExe (p : Progress) : Bool :=
  p.draft.exe.isSome || p.pending.any fun (key, _) => key = .exe

/-- The path of the executable. There is place for one. -/
def path (p : Progress) (text : String) : Except UsageError Progress :=
  if p.hasExe then .error .unexpected
  else do
    let draft ← p.settled
    return { p with draft, pending := some (.exe, some text) }

def plain (p : Progress) (text : String) : Except UsageError Progress :=
  match p.pending with
  | some (key, none) => .ok { p with pending := some (key, some text) }
  | _ => p.path text

def next (p : Progress) (text : String) : Except UsageError Progress :=
  if p.plainOnly then p.path text
  else
    match Argument.read text with
    | .plain text => p.plain text
    | .separator => .ok { p with plainOnly := true }
    | .long name value =>
      match ofLong? name with
      | none => .error .unexpected
      | some (.inl key) => p.option key value
      | some (.inr flag) => p.flag flag value
    | .short letters => p.cluster letters

def finish (p : Progress) : Except UsageError Options := do
  let draft ← p.settled
  match draft.exe with
  | none => throw .missingExecutable
  | some exe => return { draft.settings with exe }

end Progress

/-- Reads arguments from the left. The first one that is wrong decides the error. -/
def read (arguments : List String) : Except UsageError Options := do
  (← arguments.foldlM Progress.next {}).finish

end GameConsole.CommandLine
