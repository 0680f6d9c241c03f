/-! The files of the host, as far as a session reads them. -/

namespace GameConsole

inductive HostError
  | notFound
  | notDirectory
  | isDirectory
  | nameTooLong
  /-- A path cannot hold the character zero. -/
  | zeroInPath
  /-- Any other answer of the system, in its own words. -/
  | other (text : String)
deriving DecidableEq

def HostError.message : HostError → String
  | notFound => "No such file or directory (os error 2)"
  | notDirectory => "Not a directory (os error 20)"
  | isDirectory => "Is a directory (os error 21)"
  | nameTooLong => "File name too long (os error 36)"
  | zeroInPath => "file name contained an unexpected NUL byte"
  | other text => text

/-- What there is to read at each path. -/
abbrev Files := String → Except HostError ByteArray

end GameConsole
