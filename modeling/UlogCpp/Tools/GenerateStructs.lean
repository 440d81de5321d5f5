import Mathlib.Data.List.Sort
import UlogCpp.Data.Regex
import UlogCpp.SimpleWriter.Padding
import UlogCpp.ZzDataLog.Model

namespace UlogCpp

/-! `generate_structs.py`, which makes the list of fields of a struct from its
definition. -/

namespace GenerateStructs

open SimpleWriter (isLower isUpper)

/-! ## The script -/

/-- `\w`, `\s` and `\d`, for ASCII text -/
def isWord (byte : UInt8) : Bool :=
  isLower byte || isUpper byte || isDigit byte || byte == 95

def isWhite (byte : UInt8) : Bool :=
  isSpace byte || (28 ≤ byte && byte ≤ 31)

def literal (byte : UInt8) : Regex UInt8 := .one (· == byte)

/-- `(?:\[(\d+)\])?` -/
def arraySuffix : Regex UInt8 :=
  .optional (.seq (literal 91) (.seq (.group (.many 1 isDigit)) (literal 93)))

/-- `\s*(?:\[(\d+)\])?\s*;` -/
def endPattern : Regex UInt8 :=
  .seq (.many 0 isWhite) (.seq arraySuffix (.seq (.many 0 isWhite) (literal 59)))

/-- `(\w+)\s+(\w+)\s*(?:\[(\d+)\])?\s*;` -/
def fieldPattern : Regex UInt8 :=
  .seq (.group (.many 1 isWord)) (.seq (.many 1 isWhite)
    (.seq (.group (.many 1 isWord)) endPattern))

structure FieldMatch where
  fieldType : Bytes
  fieldName : Bytes
  arraySize : Bytes
  deriving DecidableEq

/-- The tuples of `re.findall` -/
def fieldMatches (structContent : Bytes) : List FieldMatch :=
  (fieldPattern.findAll structContent.length structContent).filterMap fun
    | [fieldType, fieldName, arraySize] => some ⟨fieldType, fieldName, arraySize⟩
    | _ => none

/-- `field_size` -/
def fieldSize : List (Bytes × Nat) :=
  [(ascii "int8_t", 1), (ascii "uint8_t", 1), (ascii "int16_t", 2),
    (ascii "uint16_t", 2), (ascii "int32_t", 4), (ascii "uint32_t", 4),
    (ascii "int64_t", 8), (ascii "uint64_t", 8), (ascii "float", 4),
    (ascii "double", 8), (ascii "bool", 1), (ascii "char", 1)]

/-- `field_size.get(field_type, 0)` -/
def FieldMatch.size (found : FieldMatch) : Nat :=
  (fieldSize.lookup found.fieldType).getD 0

/-- The key is the size, in reverse order. The sort is stable, and it stays so
when it is reversed. -/
def sortBySize (found : List FieldMatch) : List FieldMatch :=
  found.insertionSort fun first second => second.size ≤ first.size

/-! ## The generated code -/

/-- The value of an integer literal of C++, which is octal after a zero. -/
def literalValue : Bytes → Nat
  | 48 :: digits =>
      digits.foldl (fun value digit => 8 * value + (digit.toNat - 48)) 0
  | digits => decimalValue digits

/-- What the initializer of a field that the script prints stands for; an array
size that is empty is not printed. -/
def FieldMatch.field (found : FieldMatch) : Field :=
  if found.arraySize = [] then
    { type := found.fieldType, name := found.fieldName }
  else
    { type := found.fieldType
      name := found.fieldName
      arrayLength := Int32.ofNat (literalValue found.arraySize) }

/-- `fields()` of a generated struct -/
def fields (structContent : Bytes) : List Field :=
  (sortBySize (fieldMatches structContent)).map FieldMatch.field

/-! ## Struct definitions -/

structure Declaration where
  lead : Bytes
  fieldType : Bytes
  gap : Bytes
  fieldName : Bytes
  beforeArray : Bytes
  arraySize : Option Bytes
  beforeEnd : Bytes
  typeWord : fieldType ≠ [] ∧ ∀ byte ∈ fieldType, isWord byte = true
  nameWord : fieldName ≠ [] ∧ ∀ byte ∈ fieldName, isWord byte = true
  gapWhite : gap ≠ [] ∧ ∀ byte ∈ gap, isWhite byte = true
  white : ∀ byte ∈ lead ++ beforeArray ++ beforeEnd, isWhite byte = true
  digits : ∀ size ∈ arraySize, size ≠ [] ∧ ∀ byte ∈ size, isDigit byte = true

namespace Declaration

def arrayText (declaration : Declaration) : Bytes :=
  match declaration.arraySize with
  | none => []
  | some size => 91 :: (size ++ [93])

def text (declaration : Declaration) : Bytes :=
  declaration.fieldType ++ (declaration.gap ++ (declaration.fieldName ++
    (declaration.beforeArray ++ (declaration.arrayText ++
      (declaration.beforeEnd ++ [59])))))

def found (declaration : Declaration) : FieldMatch :=
  ⟨declaration.fieldType, declaration.fieldName, declaration.arraySize.getD []⟩

def count (declaration : Declaration) : Nat :=
  (declaration.arraySize.map literalValue).getD 1

def bytes (declaration : Declaration) : Nat :=
  declaration.count * declaration.found.size

end Declaration

def structContent (declarations : List Declaration) (trailing : Bytes) : Bytes :=
  (declarations.flatMap fun declaration =>
    declaration.lead ++ declaration.text) ++ trailing

structure Declaration.Plain (declaration : Declaration) : Prop where
  known : (fieldSize.lookup declaration.fieldType).isSome = true
  positive : 0 < declaration.count

structure Definition where
  timestamp : Declaration
  others : List Declaration
  trailing : Bytes
  isTimestamp : timestamp.found = ⟨ascii "uint64_t", ascii "timestamp", []⟩
  scalar : timestamp.arraySize = none
  plain : ∀ declaration ∈ others, declaration.Plain
  white : ∀ byte ∈ trailing, isWhite byte = true

def Definition.content (definition : Definition) : Bytes :=
  structContent (definition.timestamp :: definition.others) definition.trailing

def Definition.size (definition : Definition) : Nat :=
  ((definition.timestamp :: definition.others).map Declaration.bytes).sum

/-! ## The declarations are found -/

section Extraction

theorem isWord_of_white {byte : UInt8} (white : isWhite byte = true) :
    isWord byte = false := by
  simp only [isWhite, isSpace, isWord, isLower, isUpper, isDigit] at white ⊢
  grind

theorem head?_white {white rest : Bytes} {accepts : UInt8 → Bool}
    (nonempty : white ≠ []) (all : ∀ byte ∈ white, isWhite byte = true)
    (other : ∀ byte, isWhite byte = true → accepts byte = false) :
    ∀ head, (white ++ rest).head? = some head → accepts head = false := by
  intro head first
  obtain ⟨byte, others, rfl⟩ := List.exists_cons_of_ne_nil nonempty
  have same : byte = head := Option.some.inj first
  exact other head (all head (List.mem_cons.mpr (.inl same.symm)))

theorem head?_cons {stop : UInt8} {rest : Bytes} {accepts : UInt8 → Bool}
    (stops : accepts stop = false) :
    ∀ head, (stop :: rest).head? = some head → accepts head = false := by
  intro head first
  rwa [← Option.some.inj first]

theorem find_literal (byte : UInt8) (rest : Bytes) :
    (literal byte).find (byte :: rest) = some ⟨[], [byte], rest⟩ :=
  Regex.find_one (beq_self_eq_true byte)

theorem find_word {word rest : Bytes}
    (isText : word ≠ [] ∧ ∀ byte ∈ word, isWord byte = true)
    (ends : ∀ head, rest.head? = some head → isWord head = false) :
    (Regex.group (.many 1 isWord)).find (word ++ rest) =
      some ⟨[word], word, rest⟩ :=
  Regex.find_group (Regex.find_many (List.length_pos_iff.mpr isText.1) isText.2
    ends)

theorem find_white {white rest : Bytes} {stop : UInt8}
    (all : ∀ byte ∈ white, isWhite byte = true)
    (stops : isWhite stop = false) :
    (Regex.many 0 isWhite).find (white ++ stop :: rest) =
      some ⟨[], white, stop :: rest⟩ :=
  Regex.find_many (Nat.zero_le _) all (head?_cons stops)

theorem find_semicolon {white : Bytes} (rest : Bytes)
    (all : ∀ byte ∈ white, isWhite byte = true) :
    (Regex.seq (.many 0 isWhite) (literal 59)).find (white ++ 59 :: rest) =
      some ⟨[], white ++ [59], rest⟩ :=
  Regex.find_seq (find_white all (by decide)) (find_literal 59 rest)

theorem find_arraySuffix {size rest : Bytes}
    (digits : size ≠ [] ∧ ∀ byte ∈ size, isDigit byte = true) :
    arraySuffix.find (91 :: (size ++ 93 :: rest)) =
      some ⟨[size], 91 :: (size ++ [93]), rest⟩ := by
  have number := Regex.find_group (Regex.find_many
    (List.length_pos_iff.mpr digits.1) digits.2
    (@head?_cons 93 rest isDigit (by decide)))
  exact Regex.find_optional (Regex.find_seq (find_literal 91 _)
    (Regex.find_seq number (find_literal 93 rest)))

theorem find_noArray (rest : Bytes) :
    arraySuffix.find (59 :: rest) = some ⟨[[]], [], 59 :: rest⟩ := by
  apply Regex.find_optional_skip
  exact Regex.paths_seq (Regex.paths_one (head?_cons (by decide)))

theorem find_end (declaration : Declaration) (rest : Bytes) :
    ∃ text, endPattern.find (declaration.beforeArray ++ (declaration.arrayText ++
        (declaration.beforeEnd ++ 59 :: rest))) =
      some ⟨[declaration.arraySize.getD []], text, rest⟩ := by
  have white := declaration.white
  rw [List.forall_mem_append, List.forall_mem_append] at white
  obtain ⟨⟨_, beforeArray⟩, beforeEnd⟩ := white
  rw [Declaration.arrayText]
  cases array : declaration.arraySize with
  | none =>
      have between := List.forall_mem_append.mpr ⟨beforeArray, beforeEnd⟩
      rw [List.nil_append, ← List.append_assoc]
      exact ⟨_, Regex.find_seq (find_white between (by decide))
        (Regex.find_seq (find_noArray rest) (@find_semicolon [] rest nofun))⟩
  | some size =>
      have digits := declaration.digits size array
      rw [List.cons_append, List.append_assoc, List.singleton_append]
      exact ⟨_, Regex.find_seq (find_white beforeArray (by decide))
        (Regex.find_seq (find_arraySuffix digits)
          (find_semicolon rest beforeEnd))⟩

theorem head?_end (declaration : Declaration) (rest : Bytes) :
    ∀ head, (declaration.beforeArray ++ (declaration.arrayText ++
        (declaration.beforeEnd ++ 59 :: rest))).head? = some head →
      isWord head = false := by
  have white := declaration.white
  rw [List.forall_mem_append, List.forall_mem_append] at white
  obtain ⟨⟨_, beforeArray⟩, beforeEnd⟩ := white
  by_cases before : declaration.beforeArray = []
  · rw [before, List.nil_append, Declaration.arrayText]
    cases declaration.arraySize with
    | none =>
        simp only [List.nil_append]
        by_cases after : declaration.beforeEnd = []
        · rw [after]
          exact head?_cons (by decide)
        · exact head?_white after beforeEnd fun _ => isWord_of_white
    | some size => exact head?_cons (by decide)
  · exact head?_white before beforeArray fun _ => isWord_of_white

theorem head?_word {word rest : Bytes}
    (isText : word ≠ [] ∧ ∀ byte ∈ word, isWord byte = true) :
    ∀ head, (word ++ rest).head? = some head → isWhite head = false := by
  intro head first
  obtain ⟨byte, others, rfl⟩ := List.exists_cons_of_ne_nil isText.1
  have same : byte = head := Option.some.inj first
  have inside := isText.2 head (List.mem_cons.mpr (.inl same.symm))
  by_contra white
  rw [isWord_of_white (Bool.eq_true_of_not_eq_false white)] at inside
  exact Bool.false_ne_true inside

theorem text_append (declaration : Declaration) (rest : Bytes) :
    declaration.text ++ rest =
      declaration.fieldType ++ (declaration.gap ++ (declaration.fieldName ++
        (declaration.beforeArray ++ (declaration.arrayText ++
          (declaration.beforeEnd ++ 59 :: rest))))) := by
  simp only [Declaration.text, List.append_assoc, List.singleton_append]

theorem find_declaration (declaration : Declaration) (rest : Bytes) :
    ∃ text, fieldPattern.find (declaration.text ++ rest) =
      some ⟨[declaration.fieldType, declaration.fieldName,
        declaration.arraySize.getD []], text, rest⟩ := by
  obtain ⟨_, last⟩ := find_end declaration rest
  have name := find_word declaration.nameWord (head?_end declaration rest)
  have gap := @Regex.find_many _ isWhite 1 declaration.gap
    (declaration.fieldName ++ (declaration.beforeArray ++
      (declaration.arrayText ++ (declaration.beforeEnd ++ 59 :: rest))))
    (List.length_pos_iff.mpr declaration.gapWhite.1) declaration.gapWhite.2
    (head?_word declaration.nameWord)
  rw [text_append]
  refine ⟨_, Regex.find_seq (find_word declaration.typeWord ?_)
    (Regex.find_seq gap (Regex.find_seq name last))⟩
  exact head?_white declaration.gapWhite.1 declaration.gapWhite.2
    fun _ => isWord_of_white

theorem paths_white {byte : UInt8} {rest : Bytes} (white : isWhite byte = true) :
    fieldPattern.paths (byte :: rest) = [] := by
  apply Regex.paths_seq
  apply Regex.paths_group
  apply Regex.paths_many Nat.one_pos
  exact head?_cons (isWord_of_white white)

theorem findAll_white {white rest : Bytes} {rounds : Nat}
    (all : ∀ byte ∈ white, isWhite byte = true) (enough : white.length ≤ rounds) :
    fieldPattern.findAll rounds (white ++ rest) =
      fieldPattern.findAll (rounds - white.length) rest := by
  induction white generalizing rounds with
  | nil => rfl
  | cons byte white ih =>
      obtain ⟨here, others⟩ := List.forall_mem_cons.mp all
      cases rounds with
      | zero => exact absurd enough (Nat.not_succ_le_zero _)
      | succ rounds =>
          rw [List.cons_append, Regex.findAll_skip (paths_white here),
            ih others (Nat.le_of_succ_le_succ enough), List.length_cons,
            Nat.add_sub_add_right]

theorem findAll_structContent {declarations : List Declaration} {trailing : Bytes}
    {rounds : Nat} (white : ∀ byte ∈ trailing, isWhite byte = true)
    (enough : (structContent declarations trailing).length ≤ rounds) :
    fieldPattern.findAll rounds (structContent declarations trailing) =
      declarations.map fun declaration =>
        [declaration.fieldType, declaration.fieldName,
          declaration.arraySize.getD []] := by
  induction declarations generalizing rounds with
  | nil =>
      have none := @findAll_white trailing [] rounds white enough
      rw [List.append_nil] at none
      refine none.trans ?_
      cases rounds - trailing.length <;> rfl
  | cons declaration declarations ih =>
      have lead := (List.forall_mem_append.mp
        (List.forall_mem_append.mp declaration.white).1).1
      obtain ⟨text, here⟩ := find_declaration declaration
        (structContent declarations trailing)
      have split : structContent (declaration :: declarations) trailing =
          declaration.lead ++ (declaration.text ++
            structContent declarations trailing) := by
        simp only [structContent, List.flatMap_cons, List.append_assoc]
      have nonempty : declaration.text ++ structContent declarations trailing ≠
          [] := by
        rw [text_append]
        exact List.append_ne_nil_of_left_ne_nil declaration.typeWord.1 _
      have long := List.length_pos_iff.mpr nonempty
      have shorter : (structContent declarations trailing).length <
          (declaration.text ++ structContent declarations trailing).length := by
        rw [List.length_append]
        apply Nat.lt_add_of_pos_left
        exact List.length_pos_iff.mpr
          (List.append_ne_nil_of_left_ne_nil declaration.typeWord.1 _)
      rw [split, List.length_append] at enough
      rw [split, findAll_white lead (by omega)]
      obtain ⟨left, more⟩ : ∃ left, rounds - declaration.lead.length = left + 1 :=
        Nat.exists_eq_add_one.mpr (by omega)
      rw [more, Regex.findAll_found nonempty here, List.map_cons,
        ih (by omega)]

theorem fieldMatches_structContent {declarations : List Declaration}
    {trailing : Bytes} (white : ∀ byte ∈ trailing, isWhite byte = true) :
    fieldMatches (structContent declarations trailing) =
      declarations.map Declaration.found := by
  rw [fieldMatches, findAll_structContent white le_rfl, List.filterMap_map]
  exact congrFun (@List.filterMap_eq_map _ _ Declaration.found) declarations

end Extraction

/-! ## The fields are accepted -/

section Acceptance

open SimpleWriter (IsBasic FormatChecks members registerFormat addSizes
  addSizes_of_gapless bytes_member)

theorem fieldSize_eq : fieldSize = Field.kBasicTypes := rfl

variable {declaration : Declaration} {declarations : List Declaration}

theorem Declaration.Plain.lookup (plain : declaration.Plain) :
    Field.kBasicTypes.lookup declaration.found.field.type =
      some declaration.found.size := by
  have type : declaration.found.field.type = declaration.fieldType := by
    rw [FieldMatch.field]
    split <;> rfl
  obtain ⟨size, known⟩ := Option.isSome_iff_exists.mp plain.known
  rw [type, ← fieldSize_eq, FieldMatch.size]
  refine known.trans (congrArg some ?_)
  exact (congrArg (Option.getD · 0) known).symm

theorem Declaration.Plain.size (plain : declaration.Plain) :
    declaration.found.size = 1 ∨ declaration.found.size = 2 ∨
      declaration.found.size = 4 ∨ declaration.found.size = 8 :=
  Field.basicType plain.lookup

theorem dvd_of_le {small large : Nat}
    (first : small = 1 ∨ small = 2 ∨ small = 4 ∨ small = 8)
    (second : large = 1 ∨ large = 2 ∨ large = 4 ∨ large = 8)
    (le : small ≤ large) :
    small ∣ large := by
  rcases first with rfl | rfl | rfl | rfl <;> omega

theorem Declaration.Plain.count_member (plain : declaration.Plain)
    (few : declaration.count < 2 ^ 31) :
    declaration.found.field.member.count = declaration.count := by
  have positive := plain.positive
  rw [Field.member, FieldMatch.field, Declaration.found]
  rw [Declaration.count] at positive few ⊢
  cases array : declaration.arraySize with
  | none => rfl
  | some size =>
      rw [array] at positive few
      simp only [Option.getD_some, Option.map_some] at positive few ⊢
      rw [if_neg (declaration.digits size array).1]
      have value := Int32.toInt_ofNat_of_lt few
      rw [if_neg, Int32.toNatClampNeg, value, Int.toNat_natCast]
      rw [Int32.le_iff_toInt_le, value]
      change ¬ (_ : Int) ≤ 0
      omega

theorem Declaration.Plain.count_le (plain : declaration.Plain) :
    declaration.count ≤ declaration.bytes := by
  have sizes := plain.size
  exact Nat.le_mul_of_pos_right _ (by omega)

theorem Declaration.Plain.bytes_member (plain : declaration.Plain)
    (small : declaration.bytes < 2 ^ 31) :
    declaration.found.field.member.bytes = declaration.bytes := by
  have size := (SimpleWriter.bytes_member plain.lookup).1
  rw [Layout.Member.bytes,
    plain.count_member (Nat.lt_of_le_of_lt plain.count_le small), size,
    Declaration.bytes]

theorem fields_structContent {trailing : Bytes}
    (white : ∀ byte ∈ trailing, isWhite byte = true) :
    fields (structContent declarations trailing) =
      (sortBySize (declarations.map Declaration.found)).map FieldMatch.field := by
  rw [fields, fieldMatches_structContent white]

theorem pairwise_sortBySize (found : List FieldMatch) :
    (sortBySize found).Pairwise fun earlier later =>
      later.size ≤ earlier.size := by
  have total : Std.Total fun first second : FieldMatch =>
      second.size ≤ first.size :=
    ⟨fun first second => Nat.le_total second.size first.size⟩
  have trans : IsTrans FieldMatch fun first second =>
      second.size ≤ first.size :=
    ⟨fun _ _ _ first second => Nat.le_trans second first⟩
  exact List.pairwise_insertionSort _ found

variable {definition : Definition} {log : ZzDataLog} {name : Bytes}

def indented (fieldType fieldName : Bytes) (arraySize : Option Bytes)
    (typeWord : fieldType ≠ [] ∧ fieldType.all isWord = true)
    (nameWord : fieldName ≠ [] ∧ fieldName.all isWord = true)
    (digits : ∀ size ∈ arraySize, size ≠ [] ∧ size.all isDigit = true) :
    Declaration where
  lead := [10, 32, 32, 32, 32]
  fieldType := fieldType
  gap := [32]
  fieldName := fieldName
  beforeArray := []
  arraySize := arraySize
  beforeEnd := []
  typeWord := typeWord.imp_right List.all_eq_true.mp
  nameWord := nameWord.imp_right List.all_eq_true.mp
  gapWhite := ⟨nofun, List.all_eq_true.mp (by decide)⟩
  white := List.all_eq_true.mp (by decide)
  digits size mem := (digits size mem).imp_right List.all_eq_true.mp

def debugArray : Declaration :=
  indented (ascii "float") (ascii "debug_array") (some [52])
    (by decide) (by decide) (by decide)

def counter : Declaration :=
  indented (ascii "int8_t") (ascii "counter") none
    (by decide) (by decide) (by decide)

def array : Declaration :=
  indented (ascii "int32_t") (ascii "array") (some [54])
    (by decide) (by decide) (by decide)

/-- `MyData1` of `structs_definitions.hpp` -/
def myData1 : Definition where
  timestamp := indented (ascii "uint64_t") (ascii "timestamp") none
    (by decide) (by decide) (by decide)
  others :=
    [debugArray,
      indented (ascii "float") (ascii "cpuload") none
        (by decide) (by decide) (by decide),
      indented (ascii "float") (ascii "temperature") none
        (by decide) (by decide) (by decide),
      counter, array]
  trailing := [10]
  isTimestamp := rfl
  scalar := rfl
  plain := by
    simp only [List.forall_mem_cons]
    exact ⟨⟨by decide, by decide⟩, ⟨by decide, by decide⟩,
      ⟨by decide, by decide⟩, ⟨by decide, by decide⟩,
      ⟨by decide, by decide⟩, nofun⟩
  white := List.all_eq_true.mp (by decide)

/-- As in `escape_structs.hpp` -/
example : fields myData1.content =
    [{ type := ascii "uint64_t", name := ascii "timestamp" },
      { type := ascii "float", name := ascii "debug_array", arrayLength := 4 },
      { type := ascii "float", name := ascii "cpuload" },
      { type := ascii "float", name := ascii "temperature" },
      { type := ascii "int32_t", name := ascii "array", arrayLength := 6 },
      { type := ascii "int8_t", name := ascii "counter" }] := by
  decide +kernel

end Acceptance

end GenerateStructs

end UlogCpp
