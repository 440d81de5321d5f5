import UlogCpp.Messages.Field

namespace UlogCpp

namespace ZzDataLog

/-! The names of the files of a log, which carry a version number. -/

/-- `std::to_string` -/
def toText (value : Int32) : Bytes :=
  if value.toInt < 0 then 45 :: decimal value.toInt.natAbs
  else decimal value.toNatClampNeg

def isValidFilename (filename : Bytes) : Bool :=
  match splitLast 46 filename with -- lastDotPos
  | none => false
  | some (_, suffix) => suffix == ascii "ulg"

/-- `filename.substr(0, versionStartPos) + "." + std::to_string(version) +
".ulg"` -/
def versioned (start : Bytes) (version : Int32) : Bytes :=
  start ++ 46 :: (toText version ++ ascii ".ulg")

/-- The name with the next version number. Where there is one dot only, the
version start is `npos`: the text before the dot is taken as the version, and
the whole name as what precedes it. -/
def newVersion (filename : Bytes) : Except Stop Bytes :=
  match splitLast 46 filename with -- lastDotPos
  | none => .ok filename
  | some ([], _) => .ok (versioned [] 1)
  | some (stem, _) =>
      match splitLast 46 stem with -- versionStartPos
      | none => do
          let version ← stoi stem
          return versioned filename (version + 1)
      | some (start, versionStr) => do
          let version ← stoi versionStr
          return versioned start (version + 1)

def generateNewFilename (filename : Bytes) : Except Stop Bytes :=
  if filename = [] then
    .error (.raised (.usage (ascii "Filename must not be empty.")))
  else newVersion filename

def generateNewPathOrFilename (pathOrFilename : Bytes) : Except Stop Bytes :=
  if pathOrFilename = [] then
    .error (.raised (.usage (ascii "Path or filename must not be empty.")))
  else
    match splitLast 47 pathOrFilename with -- lastSlashPos
    | none => generateNewFilename pathOrFilename
    | some (path, filename) => do
        let newFilename ← newVersion filename
        return path ++ 47 :: newFilename

/-! ## Directories -/

def IsDirectory (directory : Bytes) : Prop :=
  directory = [] ∨ ∃ path, directory = path ++ [47]

def directoryOf (path : Bytes) : Bytes :=
  match splitLast 47 path with
  | none => []
  | some (directory, _) => directory ++ [47]

section Directories

variable {directory : Bytes}

theorem IsDirectory.splitLast (isDirectory : IsDirectory directory)
    {name : Bytes} (noSlash : (47 : UInt8) ∉ name) :
    (directory = [] ∧ splitLast 47 (directory ++ name) = none) ∨
      ∃ path, directory = path ++ [47] ∧
        UlogCpp.splitLast 47 (directory ++ name) = some (path, name) := by
  rcases isDirectory with rfl | ⟨path, rfl⟩
  · exact .inl ⟨rfl, splitLast_eq_none.mpr noSlash⟩
  · refine .inr ⟨path, rfl, ?_⟩
    rw [List.append_assoc]
    exact splitLast_append noSlash path

theorem directoryOf_append (isDirectory : IsDirectory directory)
    {name : Bytes} (noSlash : (47 : UInt8) ∉ name) :
    directoryOf (directory ++ name) = directory := by
  unfold directoryOf
  rcases isDirectory.splitLast noSlash with ⟨none, split⟩ | ⟨path, same, split⟩
  · rw [split, none]
  · rw [split, same]

/-- Under a directory, a path is renamed as the file name in it. -/
theorem generateNewPathOrFilename_append (isDirectory : IsDirectory directory)
    {name : Bytes} (some : name ≠ []) (noSlash : (47 : UInt8) ∉ name) :
    generateNewPathOrFilename (directory ++ name) =
      (newVersion name).map (directory ++ ·) := by
  have nonempty : directory ++ name ≠ [] := fun none =>
    some (List.append_eq_nil_iff.mp none).2
  rw [generateNewPathOrFilename, if_neg nonempty]
  rcases isDirectory.splitLast noSlash with ⟨rfl, split⟩ | ⟨path, rfl, split⟩
  · rw [split]
    change generateNewFilename name = _
    rw [generateNewFilename, if_neg some]
    cases newVersion name <;> rfl
  · rw [split]
    dsimp only
    cases newVersion name with
    | error stop => rfl
    | ok newName =>
        refine congrArg Except.ok ?_
        exact (List.append_assoc path [47] newName).symm

theorem exists_directory (path : Bytes) :
    ∃ directory name, path = directory ++ name ∧ IsDirectory directory ∧
      (47 : UInt8) ∉ name := by
  by_cases slash : (47 : UInt8) ∈ path
  · obtain ⟨before, name, rfl, absent⟩ := exists_splitLast slash
    refine ⟨before ++ [47], name, ?_, .inr ⟨before, rfl⟩, absent⟩
    exact (List.append_assoc before [47] name).symm
  · exact ⟨[], path, rfl, .inl rfl, slash⟩

end Directories

/-! ## Names with a version -/

/-- `<base>.<n>.ulg` -/
def fileName (base version : Bytes) : Bytes :=
  base ++ 46 :: (version ++ ascii ".ulg")

theorem toText_ofNat {value : Nat} (small : value < 2 ^ 31) :
    toText (Int32.ofNat value) = decimal value := by
  have same : (Int32.ofNat value).toInt = value := Int32.toInt_ofNat_of_lt small
  rw [toText, if_neg (by omega), ← Int32.toNat_toInt, same]
  rfl

theorem splitLast_fileName (base version : Bytes) :
    splitLast 46 (fileName base version) =
      some (base ++ 46 :: version, ascii "ulg") := by
  have plain : (46 : UInt8) ∉ ascii "ulg" := by decide
  have split := splitLast_append plain (base ++ 46 :: version)
  rw [List.append_assoc] at split
  exact split

theorem newVersion_fileName {base version : Bytes} {value : Nat}
    (numeral : Numeral version value) (small : value + 1 < 2 ^ 31) :
    newVersion (fileName base version) =
      .ok (fileName base (decimal (value + 1))) := by
  have noDot : (46 : UInt8) ∉ version := numeral.not_mem rfl
  have lastDot := splitLast_fileName base version
  have versionStart := splitLast_append noDot base
  have next : Int32.ofNat value + 1 = Int32.ofNat (value + 1) :=
    (Int32.ofNat_add value 1).symm
  have read : stoi version = .ok (Int32.ofNat value) := by
    have given := @stoi_numeral version [] value numeral (by omega) nofun
    rwa [List.append_nil] at given
  obtain ⟨head, tail, same⟩ : ∃ head tail, base ++ 46 :: version = head :: tail :=
    List.exists_cons_of_ne_nil (by simp)
  rw [same] at lastDot versionStart
  simp only [newVersion, lastDot, versionStart, read]
  rw [← toText_ofNat small, ← next]
  rfl

theorem fileName_ne_nil (base version : Bytes) : fileName base version ≠ [] :=
  List.append_ne_nil_of_right_ne_nil _ (List.cons_ne_nil _ _)

theorem isValidFilename_fileName (base version : Bytes) :
    isValidFilename (fileName base version) = true := by
  rw [isValidFilename, splitLast_fileName]
  exact beq_self_eq_true _

theorem fileName_noSlash {base version : Bytes} {value : Nat}
    (noSlash : (47 : UInt8) ∉ base)
    (numeral : Numeral version value) :
    (47 : UInt8) ∉ fileName base version := by
  have plain : (47 : UInt8) ∉ ascii ".ulg" := by decide
  intro mem
  rcases List.mem_append.mp mem with inBase | later
  · exact noSlash inBase
  · rcases List.mem_cons.mp later with same | rest
    · cases same
    · exact (List.mem_append.mp rest).elim (numeral.not_mem rfl) plain

theorem generateNewFilename_fileName {base version : Bytes} {value : Nat}
    (numeral : Numeral version value) (small : value + 1 < 2 ^ 31) :
    generateNewFilename (fileName base version) =
      .ok (fileName base (decimal (value + 1))) := by
  rw [generateNewFilename, if_neg (fileName_ne_nil _ _)]
  exact newVersion_fileName numeral small

theorem generateNewPathOrFilename_fileName {base version : Bytes} {value : Nat}
    (numeral : Numeral version value) (small : value + 1 < 2 ^ 31) :
    generateNewPathOrFilename (fileName base version) =
      .ok (fileName base (decimal (value + 1))) := by
  obtain ⟨directory, start, rfl, isDirectory, noSlash⟩ := exists_directory base
  have same : ∀ text, fileName (directory ++ start) text =
      directory ++ fileName start text := fun _ => List.append_assoc _ _ _
  rw [same, generateNewPathOrFilename_append isDirectory (fileName_ne_nil _ _)
    (fileName_noSlash noSlash numeral), newVersion_fileName numeral small, same]
  rfl

theorem fileName_injective {base version other : Bytes} {value number : Nat}
    (numeral : Numeral version value) (second : Numeral other number)
    (same : fileName base version = fileName base other) : value = number := by
  have equal := List.append_cancel_left same
  have texts : version = other := List.append_cancel_right (List.cons.inj equal).2
  rw [← numeral.value, ← second.value, texts]

example : generateNewPathOrFilename (ascii "/tmp/test.2.ulg") =
    .ok (ascii "/tmp/test.3.ulg") := by
  decide +kernel

end ZzDataLog

end UlogCpp
