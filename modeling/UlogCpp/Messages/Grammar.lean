import UlogCpp.Messages.Field

namespace UlogCpp

/-! The grammar of a field, and the texts that the constructor takes for one. -/

theorem stoi_error {text : Bytes} {stop : Stop} (failed : stoi text = .error stop) :
    stop = .raised .invalidArgument ∨ stop = .raised .outOfRange := by
  rw [stoi] at failed
  simp only [ite_eq_iff, reduceCtorEq, and_false, false_or, Except.error.injEq]
    at failed
  obtain ⟨_, same⟩ | ⟨_, _, same⟩ := failed
  · exact .inl same.symm
  · exact .inr same.symm

namespace Field

inductive Text : Bytes → Field → Prop where
  | scalar {type name : Bytes} (no_space : 32 ∉ type) (no_bracket : 91 ∉ type) :
      Text (type ++ 32 :: name) { type, name }
  | array {type length name : Bytes} {value : Nat} (no_space : 32 ∉ type)
      (no_bracket : 91 ∉ type) (numeral : Numeral length value)
      (small : value ≤ 2 ^ 31 - 1) :
      Text (type ++ 91 :: (length ++ [93]) ++ 32 :: name)
        { type, name, arrayLength := Int32.ofNat value }

inductive Shape : Bytes → Prop where
  | unspaced {text : Bytes} (no_space : 32 ∉ text) : Shape text
  | scalar {type name : Bytes} (no_space : 32 ∉ type) (no_bracket : 91 ∉ type) :
      Shape (type ++ 32 :: name)
  | unclosed {type after name : Bytes} (no_space : 32 ∉ type ++ 91 :: after)
      (no_bracket : 91 ∉ type) (unclosed : (91 :: after).getLast? ≠ some 93) :
      Shape (type ++ 91 :: after ++ 32 :: name)
  | closed {type length name : Bytes}
      (no_space : 32 ∉ type ++ 91 :: (length ++ [93])) (no_bracket : 91 ∉ type) :
      Shape (type ++ 91 :: (length ++ [93]) ++ 32 :: name)

theorem shape (text : Bytes) : Shape text := by
  cases atSpace : splitFirst 32 text with
  | none => exact .unspaced (splitFirst_eq_none.mp atSpace)
  | some parts =>
      obtain ⟨rfl, no_space⟩ := splitFirst_eq_some.mp atSpace
      cases atBracket : splitFirst 91 parts.1 with
      | none => exact .scalar no_space (splitFirst_eq_none.mp atBracket)
      | some pieces =>
          obtain ⟨same, no_bracket⟩ := splitFirst_eq_some.mp atBracket
          rw [same] at no_space ⊢
          by_cases closes : (91 :: pieces.2).getLast? = some 93
          · obtain ⟨before, shape⟩ := List.getLast?_eq_some_iff.mp closes
            cases before with
            | nil => cases shape
            | cons first length =>
                obtain ⟨rfl, after⟩ := List.cons.inj shape
                rw [after] at no_space ⊢
                exact .closed no_space no_bracket
          · exact .unclosed no_space no_bracket closes

/-! ## What the constructor does with each -/

theorem ofKey_unspaced {text : Bytes} (no_space : 32 ∉ text) :
    ofKey text = throwParsing "Invalid key format" := by
  rw [ofKey, splitFirst_eq_none.mpr no_space]

theorem ofKey_scalar {type name : Bytes} (no_space : 32 ∉ type)
    (no_bracket : 91 ∉ type) :
    ofKey (type ++ 32 :: name) = .ok { type, name } := by
  rw [ofKey, splitFirst_append no_space]
  simp only [splitFirst_eq_none.mpr no_bracket]

theorem ofKey_unclosed {type after name : Bytes}
    (no_space : 32 ∉ type ++ 91 :: after) (no_bracket : 91 ∉ type)
    (unclosed : (91 :: after).getLast? ≠ some 93) :
    ofKey (type ++ 91 :: after ++ 32 :: name) =
      throwParsing "Invalid key format (missing ])" := by
  obtain ⟨last, ends⟩ := Option.ne_none_iff_exists'.mp
    (mt List.getLast?_eq_none_iff.mp (List.cons_ne_nil 91 after))
  have whole : (type ++ 91 :: after).getLast? = some last := by
    rw [List.getLast?_append, ends]
    rfl
  have other : last ≠ 93 := fun same => unclosed (ends.trans (congrArg _ same))
  rw [ofKey, splitFirst_append no_space]
  simp only [splitFirst_append no_bracket, whole, other, if_false]

theorem ofKey_closed {type length name : Bytes}
    (no_space : 32 ∉ type ++ 91 :: (length ++ [93])) (no_bracket : 91 ∉ type) :
    ofKey (type ++ 91 :: (length ++ [93]) ++ 32 :: name) =
      (stoi (length ++ [93])).map fun arrayLength =>
        { type, name, arrayLength } := by
  have last : (type ++ 91 :: (length ++ [93])).getLast? = some 93 := by
    rw [← List.cons_append, ← List.append_assoc]
    exact List.getLast?_concat
  rw [ofKey, splitFirst_append no_space]
  simp only [splitFirst_append no_bracket, last, if_true]
  rfl

theorem Text.ofKey {text : Bytes} {field : Field} (isText : Text text field) :
    ofKey text = .ok field := by
  cases isText with
  | scalar no_space no_bracket => exact ofKey_scalar no_space no_bracket
  | array no_space no_bracket numeral small =>
      have spaceless := numeral.not_mem (show isDigit 32 = false from rfl)
      rw [ofKey_closed (by simp [no_space, spaceless]) no_bracket,
        stoi_numeral numeral (Nat.lt_of_le_of_lt small (by decide))
          (by simp [isDigit])]
      rfl

/-! ## The grammar -/

/-- The constructor takes the field from a text of the grammar, and rejects
every other text with a `ParsingException`. -/
def FollowsGrammar (text : Bytes) : Prop :=
  (∀ field, ofKey text = .ok field ↔ Text text field) ∧
    ((∀ field, ¬ Text text field) →
      ∃ reason, ofKey text = .error (.raised (.parsing reason)))

/-- If there is a `[` before the first space and a `]` right before it, then
what is between them is a number of decimal digits that fits an `int`. -/
def PlainLength (text : Bytes) : Prop :=
  ∀ type length name, text = type ++ 91 :: (length ++ [93]) ++ 32 :: name →
    32 ∉ type ++ length → 91 ∉ type →
    ∃ value ≤ 2 ^ 31 - 1, Numeral length value

theorem bracket_unique {type after name kind others label : Bytes}
    (same : type ++ 91 :: after ++ 32 :: name = kind ++ 91 :: others ++ 32 :: label)
    (no_space : 32 ∉ type ++ 91 :: after) (other_space : 32 ∉ kind ++ 91 :: others)
    (no_bracket : 91 ∉ type) (other_bracket : 91 ∉ kind) :
    type = kind ∧ after = others := by
  have atSpace := splitFirst_append no_space name
  rw [same, splitFirst_append other_space] at atSpace
  have atBracket := splitFirst_append no_bracket after
  have whole : kind ++ 91 :: others = type ++ 91 :: after :=
    congrArg Prod.fst (Option.some.inj atSpace)
  rw [← whole, splitFirst_append other_bracket] at atBracket
  cases atBracket
  exact ⟨rfl, rfl⟩

theorem bracket_not_scalar {type after name kind label : Bytes}
    (same : type ++ 91 :: after ++ 32 :: name = kind ++ 32 :: label)
    (no_space : 32 ∉ type ++ 91 :: after) (other_space : 32 ∉ kind) :
    91 ∈ kind := by
  have atSpace := splitFirst_append no_space name
  rw [same, splitFirst_append other_space] at atSpace
  cases atSpace
  exact List.mem_append_right _ List.mem_cons_self

theorem no_space_closed {type length : Bytes} (no_space : 32 ∉ type ++ length) :
    32 ∉ type ++ 91 :: (length ++ [93]) := by
  simpa using no_space

theorem Text.closed {type length name : Bytes} {field : Field}
    (no_space : 32 ∉ type ++ 91 :: (length ++ [93])) (no_bracket : 91 ∉ type)
    (isText : Text (type ++ 91 :: (length ++ [93]) ++ 32 :: name) field) :
    ∃ value ≤ 2 ^ 31 - 1, Numeral length value := by
  generalize whole : type ++ 91 :: (length ++ [93]) ++ 32 :: name = text at isText
  cases isText with
  | scalar other_space other_bracket =>
      exact absurd (bracket_not_scalar whole no_space other_space) other_bracket
  | @array _ digits _ value other_space other_bracket numeral small =>
      have spaceless : 32 ∉ digits := numeral.not_mem rfl
      obtain ⟨rfl, same⟩ := bracket_unique whole no_space
        (no_space_closed (by simp [other_space, spaceless])) no_bracket
        other_bracket
      cases List.append_cancel_right same
      exact ⟨value, small, numeral⟩

theorem FollowsGrammar.of_text {text : Bytes} {field : Field}
    (isText : Text text field) : FollowsGrammar text := by
  refine ⟨fun other => ⟨fun parsed => ?_, Text.ofKey⟩,
    fun none => absurd isText (none field)⟩
  cases isText.ofKey.symm.trans parsed
  exact isText

theorem FollowsGrammar.of_rejected {text : Bytes} {reason : String}
    (rejected : Field.ofKey text = throwParsing reason) : FollowsGrammar text := by
  refine ⟨fun field => ⟨fun parsed => ?_, Text.ofKey⟩, fun _ => ⟨_, rejected⟩⟩
  cases rejected.symm.trans parsed

theorem followsGrammar_closed_iff {type length name : Bytes}
    (no_space : 32 ∉ type ++ 91 :: (length ++ [93])) (no_bracket : 91 ∉ type) :
    FollowsGrammar (type ++ 91 :: (length ++ [93]) ++ 32 :: name) ↔
      ∃ value ≤ 2 ^ 31 - 1, Numeral length value := by
  constructor
  · intro follows
    by_contra other
    have foreign : ∀ field,
        ¬ Text (type ++ 91 :: (length ++ [93]) ++ 32 :: name) field :=
      fun field isText => other (isText.closed no_space no_bracket)
    obtain ⟨reason, rejected⟩ := follows.2 foreign
    rw [ofKey_closed no_space no_bracket] at rejected
    cases converted : stoi (length ++ [93]) with
    | ok value =>
        rw [converted] at rejected
        cases rejected
    | error stop =>
        rw [converted] at rejected
        cases rejected
        obtain same | same := stoi_error converted <;> cases same
  · rintro ⟨value, small, numeral⟩
    rw [List.mem_append, not_or] at no_space
    exact .of_text (.array no_space.1 no_bracket numeral small)

/-- The constructor follows its grammar exactly on the texts where a number of
decimal digits is between the brackets, if there are brackets. -/
theorem followsGrammar_iff (text : Bytes) :
    FollowsGrammar text ↔ PlainLength text := by
  cases shape text with
  | unspaced no_space =>
      refine iff_of_true (.of_rejected (ofKey_unspaced no_space)) ?_
      rintro type length name rfl - -
      simp at no_space
  | scalar no_space no_bracket =>
      refine iff_of_true (.of_text (.scalar no_space no_bracket)) ?_
      intro type length name same other_space _
      exact absurd (bracket_not_scalar same.symm (no_space_closed other_space)
        no_space) no_bracket
  | unclosed no_space no_bracket unclosed =>
      refine iff_of_true
        (.of_rejected (ofKey_unclosed no_space no_bracket unclosed)) ?_
      intro type length name same other_space other_bracket
      obtain ⟨-, rfl⟩ := bracket_unique same no_space
        (no_space_closed other_space) no_bracket other_bracket
      rw [← List.cons_append, List.getLast?_concat] at unclosed
      exact absurd rfl unclosed
  | @closed kind digits label no_space no_bracket =>
      rw [followsGrammar_closed_iff no_space no_bracket]
      constructor
      · intro plain type length name same other_space other_bracket
        obtain ⟨-, same⟩ := bracket_unique same no_space
          (no_space_closed other_space) no_bracket other_bracket
        cases List.append_cancel_right same
        exact plain
      · intro plain
        exact plain kind digits label rfl (by simpa using no_space) no_bracket

/-- A field is read from a text whose array length goes on after its digits. -/
theorem not_followsGrammar : ¬ FollowsGrammar (ascii "int8_t[5x] a") := by
  intro follows
  have read : Field.ofKey (ascii "int8_t[5x] a") =
      .ok { type := ascii "int8_t", name := ascii "a", arrayLength := 5 } := by
    decide +kernel
  obtain ⟨value, -, numeral⟩ :=
    @Text.closed (ascii "int8_t") (ascii "5x") (ascii "a") _
      (by decide +kernel) (by decide +kernel) ((follows.1 _).mp read)
  exact absurd (numeral.digits 120 (by decide +kernel)) (by decide)

end Field

end UlogCpp
