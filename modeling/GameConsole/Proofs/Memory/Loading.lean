import GameConsole.Proofs.Emulator.Boot
import GameConsole.Proofs.Memory.Contents

/-! Executables that come from anywhere. An image is loaded if it is long enough for its header and
for the payload that the header declares, and if the payload ends within RAM; the first of these
that fails is the fault. Nothing else in an image plays a part. -/

namespace GameConsole

namespace Executable

/-- The words that stand in the header of an image. -/
def headerIn (image : ByteArray) : Header where
  pc := Bytes.wordAt image 0x10
  gp := Bytes.wordAt image 0x14
  load := Bytes.wordAt image 0x18
  size := Bytes.wordAt image 0x1C
  sp := Bytes.wordAt image 0x30

/-- The number of payload bytes that the header declares. -/
def declared (image : ByteArray) : Nat := (headerIn image).size.toNat

/-- Where in RAM the payload is to start. -/
def start (image : ByteArray) : Nat := (headerIn image).load.toNat % 0x200000

structure Loadable (image : ByteArray) : Prop where
  header : 2048 ≤ image.size
  payload : 2048 + declared image ≤ image.size
  ram : start image + declared image ≤ 0x200000

/-- The fault of an image. Of the three conditions it tells the first that fails. -/
inductive Refused (image : ByteArray) : ImageFault → Prop
  | tooSmall (header : image.size < 2048) : Refused image (.tooSmall image.size)
  | truncated (header : 2048 ≤ image.size) (payload : image.size < 2048 + declared image) :
      Refused image (.truncated (headerIn image).size (image.size - 2048))
  | doesNotFit (header : 2048 ≤ image.size) (payload : 2048 + declared image ≤ image.size)
      (ram : 0x200000 < start image + declared image) :
      Refused image (.doesNotFit (.ofNat (start image)) (headerIn image).size)

/-- Two images alike in the header words, in the payload, and in whether there is room for it. -/
structure Alike (image image' : ByteArray) : Prop where
  byte : ∀ i, (0x10 ≤ i ∧ i < 0x20 ∨ 0x30 ≤ i ∧ i < 0x34 ∨
    2048 ≤ i ∧ i < 2048 + declared image) → Bytes.byteAt image' i = Bytes.byteAt image i
  size : image'.size = image.size ∨
    2048 + declared image ≤ image.size ∧ 2048 + declared image ≤ image'.size

variable {image image' : ByteArray}

theorem loadable_or_refused (image : ByteArray) :
    Loadable image ∨ ∃ cause, Refused image cause := by
  rcases Nat.lt_or_ge image.size 2048 with hsize | hheader
  · exact .inr ⟨_, .tooSmall hsize⟩
  rcases Nat.lt_or_ge image.size (2048 + declared image) with hshort | hpayload
  · exact .inr ⟨_, .truncated hheader hshort⟩
  rcases Nat.lt_or_ge 0x200000 (start image + declared image) with hlarge | hram
  · exact .inr ⟨_, .doesNotFit hheader hpayload hlarge⟩
  · exact .inl ⟨hheader, hpayload, hram⟩

theorem readHeader_eq (image : ByteArray) : readHeader image =
    if image.size < 2048 then .error (.tooSmall image.size) else .ok (headerIn image) := rfl

theorem payload_eq (image : ByteArray) : (headerIn image).payload image =
    if image.size - 2048 < declared image then
      .error (.truncated (headerIn image).size (image.size - 2048))
    else .ok (image.extract 2048 (2048 + declared image)) := rfl

theorem readHeader_eq_ok (h : 2048 ≤ image.size) : readHeader image = .ok (headerIn image) := by
  rw [readHeader_eq, if_neg (Nat.not_lt.2 h)]

theorem payload_eq_ok (h : 2048 + declared image ≤ image.size) :
    (headerIn image).payload image = .ok (image.extract 2048 (2048 + declared image)) := by
  rw [payload_eq, if_neg (Nat.not_lt.2 (Nat.le_sub_of_add_le' h))]

theorem size_extract_payload (h : 2048 + declared image ≤ image.size) :
    (image.extract 2048 (2048 + declared image)).size = declared image := by
  rw [ByteArray.size_extract, Nat.min_eq_left h, Nat.add_sub_cancel_left]

namespace Alike

variable (h : Alike image image')

include h

theorem word {i : Nat} (hi : 0x10 ≤ i ∧ i + 4 ≤ 0x20 ∨ i = 0x30) :
    Bytes.wordAt image' i = Bytes.wordAt image i := by
  have hbyte {k : Nat} (hk : k < 4) : Bytes.byteAt image' (i + k) = Bytes.byteAt image (i + k) :=
    h.byte _ (by omega)
  have hfirst : Bytes.byteAt image' i = Bytes.byteAt image i := h.byte i (by omega)
  rw [Bytes.wordAt, Bytes.wordAt, hfirst, hbyte (by decide), hbyte (by decide), hbyte (by decide)]

theorem headerIn_eq : headerIn image' = headerIn image := by
  simp only [headerIn, h.word (i := 0x10) (by decide), h.word (i := 0x14) (by decide),
    h.word (i := 0x18) (by decide), h.word (i := 0x1C) (by decide),
    h.word (i := 0x30) (by decide)]

theorem declared_eq : declared image' = declared image := by rw [declared, declared, h.headerIn_eq]

theorem start_eq : start image' = start image := by rw [start, start, h.headerIn_eq]

theorem loadable (hload : Loadable image) : Loadable image' := by
  obtain ⟨hheader, hpayload, hram⟩ := hload
  have hsize := h.size
  have hdeclared := h.declared_eq
  exact ⟨by omega, by omega, by rwa [h.start_eq, hdeclared]⟩

/-- An image that is too short is alike to images of its size only. -/
theorem refused {cause : ImageFault} (hrefused : Refused image cause) : Refused image' cause := by
  have hsize := h.size
  have hdeclared := h.declared_eq
  cases hrefused with
  | tooSmall hheader =>
    have hsame : image'.size = image.size := by omega
    rw [← hsame]
    exact .tooSmall (by omega)
  | truncated hheader hpayload =>
    have hsame : image'.size = image.size := by omega
    rw [← hsame, ← h.headerIn_eq]
    exact .truncated (by omega) (by omega)
  | doesNotFit hheader hpayload hram =>
    rw [← h.start_eq, ← h.headerIn_eq]
    exact .doesNotFit (by omega) (by omega) (by rwa [h.start_eq, h.declared_eq])

end Alike

end Executable

namespace Memory

open Executable

/-- `m'` is `m` with the payload of an image in RAM. -/
structure Loaded (m : Memory) (image : ByteArray) (m' : Memory) : Prop where
  ram : ∀ i, Bytes.byteAt m'.ram.bytes i =
    if start image ≤ i ∧ i < start image + declared image then
      Bytes.byteAt image (2048 + (i - start image))
    else Bytes.byteAt m.ram.bytes i
  rom : m'.rom = m.rom
  io : m'.io = m.io

variable {m m₁ m₂ : Memory} {image image' : ByteArray}

theorem Loaded.unique (h₁ : Loaded m image m₁) (h₂ : Loaded m image m₂) : m₁ = m₂ := by
  have hram : m₁.ram = m₂.ram := by
    apply Region.ext_bytes
    apply Bytes.ext_byteAt
    · rw [Region.size_bytes, Region.size_bytes]
    · intro i _
      rw [h₁.ram, h₂.ram]
  obtain ⟨ram₁, rom₁, io₁⟩ := m₁
  obtain ⟨ram₂, rom₂, io₂⟩ := m₂
  cases hram
  cases h₁.rom.trans h₂.rom.symm
  cases h₁.io.trans h₂.io.symm
  rfl

theorem Loaded.of_alike (h : Alike image image') (hloaded : Loaded m image' m₁) :
    Loaded m image m₁ where
  ram i := by
    rw [hloaded.ram, h.start_eq, h.declared_eq]
    split
    · exact h.byte _ (by omega)
    · rfl
  rom := hloaded.rom
  io := hloaded.io

theorem loadExecutable_of_loadable (m : Memory) (h : Loadable image) :
    ∃ m', m.loadExecutable image = (.ok (headerIn image), m') ∧ Loaded m image m' := by
  have hsize := size_extract_payload h.payload
  have hfits : ((headerIn image).load.toNat &&& (ramSize - 1)) +
      (image.extract 2048 (2048 + declared image)).size ≤ ramSize := by
    rw [and_ramSize_sub_one, hsize]
    exact h.ram
  refine ⟨_, m.loadExecutable_eq_ok (readHeader_eq_ok h.header) (payload_eq_ok h.payload) hfits, ?_,
    rfl, rfl⟩
  intro i
  have hstart : (headerIn image).load.toNat &&& (ramSize - 1) = start image :=
    and_ramSize_sub_one _
  change Bytes.byteAt (Bytes.overlay m.ram.bytes _ _) i = _
  rw [Bytes.byteAt_overlay (by rw [m.ram.size_bytes]; exact hfits), hstart, hsize,
    Bytes.byteAt_extract]
  by_cases hi : start image ≤ i ∧ i < start image + declared image
  · rw [if_pos hi, if_pos hi, if_pos (by omega)]
  · rw [if_neg hi, if_neg hi]

theorem loadExecutable_of_truncated (m : Memory) {header : Header} {cause : ImageFault}
    (hread : readHeader image = .ok header) (hpayload : header.payload image = .error cause) :
    m.loadExecutable image = (.error (.image cause), m) := by
  simp only [loadExecutable, hread, hpayload]

/-- Whichever of the three conditions fails, the memory is left as it was. -/
theorem loadExecutable_of_refused (m : Memory) {why : ImageFault} (h : Refused image why) :
    m.loadExecutable image = (.error (.image why), m) := by
  cases h with
  | tooSmall hheader =>
    have hread : readHeader image = .error (.tooSmall image.size) := by
      rw [readHeader_eq, if_pos hheader]
    simp only [loadExecutable, hread]
  | truncated hheader hpayload =>
    have hshort : (headerIn image).payload image =
        .error (.truncated (headerIn image).size (image.size - 2048)) := by
      rw [payload_eq, if_pos (Nat.sub_lt_left_of_lt_add hheader hpayload)]
    exact m.loadExecutable_of_truncated (readHeader_eq_ok hheader) hshort
  | doesNotFit hheader hpayload hram =>
    have hsize := size_extract_payload hpayload
    rw [m.loadExecutable_eq_error (readHeader_eq_ok hheader) (payload_eq_ok hpayload),
      and_ramSize_sub_one]
    · rfl
    · have hramSize : ramSize = 0x200000 := rfl
      rw [and_ramSize_sub_one, hsize, hramSize]
      exact hram

theorem loadExecutable_of_alike (m : Memory) (h : Alike image image') :
    m.loadExecutable image' = m.loadExecutable image := by
  rcases loadable_or_refused image with hload | ⟨why, hrefused⟩
  · obtain ⟨m₁, hload₁, hloaded₁⟩ := m.loadExecutable_of_loadable hload
    obtain ⟨m₂, hload₂, hloaded₂⟩ := m.loadExecutable_of_loadable (h.loadable hload)
    rw [hload₁, hload₂, h.headerIn_eq, hloaded₁.unique (hloaded₂.of_alike h)]
  · rw [m.loadExecutable_of_refused hrefused, m.loadExecutable_of_refused (h.refused hrefused)]

/-- Which images are loaded and what becomes of the memory, which faults the others have, and that
nothing in an image but its header words and its payload matters. -/
theorem loadExecutable_ends (m : Memory) (image : ByteArray) :
    ((∃ header m', m.loadExecutable image = (.ok header, m')) ↔ Loadable image) ∧
    (∀ header m', m.loadExecutable image = (.ok header, m') →
      header = headerIn image ∧ Loaded m image m') ∧
    (∀ cause m', m.loadExecutable image = (.error cause, m') ↔
      m' = m ∧ ∃ why, cause = .image why ∧ Refused image why) ∧
    ∀ image', Alike image image' → m.loadExecutable image' = m.loadExecutable image := by
  refine ⟨⟨fun ⟨header, m', hok⟩ => ?_, fun hload => ?_⟩, fun header m' hok => ?_,
    fun cause m' => ⟨fun herror => ?_, ?_⟩, fun image' => m.loadExecutable_of_alike⟩
  · refine (loadable_or_refused image).resolve_right fun ⟨why, hrefused⟩ => ?_
    rw [m.loadExecutable_of_refused hrefused] at hok
    cases hok
  · obtain ⟨m', hok, -⟩ := m.loadExecutable_of_loadable hload
    exact ⟨_, m', hok⟩
  · rcases loadable_or_refused image with hload | ⟨why, hrefused⟩
    · obtain ⟨m'', hok', hloaded⟩ := m.loadExecutable_of_loadable hload
      rw [hok'] at hok
      cases hok
      exact ⟨rfl, hloaded⟩
    · rw [m.loadExecutable_of_refused hrefused] at hok
      cases hok
  · rcases loadable_or_refused image with hload | ⟨why, hrefused⟩
    · obtain ⟨m'', hok, -⟩ := m.loadExecutable_of_loadable hload
      rw [hok] at herror
      cases herror
    · rw [m.loadExecutable_of_refused hrefused] at herror
      cases herror
      exact ⟨rfl, why, rfl, hrefused⟩
  · rintro ⟨rfl, why, rfl, hrefused⟩
    exact m'.loadExecutable_of_refused hrefused

end Memory

end GameConsole
