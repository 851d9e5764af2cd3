import Mathlib
import AccountVault.Proofs.Json.Spelled

/-!
# Reading fields of a known type

A reader of a field is given the text of any term. It takes the terms of its own type and refuses
all others, each at a place inside the text. From what a reader does with one member follows what it
does with the members of a record, one after another: it ends in the state that the terms lead to,
or it stops at the first member that leads nowhere.
-/

namespace AccountVault.Json

variable {α β σ : Type}

/-- The reader takes these bytes as the given value, or refuses them if there is none. -/
inductive Decides (reader : Bytes → Read α) (bytes : Bytes) : Option α → Prop
  | taken {a : α} (h : Settles reader bytes (.ok a)) : Decides reader bytes (some a)
  | refused (fault : Fault) (h : Settles reader bytes (.error fault)) : Decides reader bytes none

theorem Decides.of_eq {reader reader' : Bytes → Read α} {bytes bytes' : Bytes}
    {expected : Option α} (h : Decides reader bytes expected)
    (same : ∀ after, reader' (bytes' ++ after) = reader (bytes ++ after)) :
    Decides reader' bytes' expected := by
  cases h with
  | taken h => exact .taken fun after ends => (same after).trans (h after ends)
  | refused fault h => exact .refused fault fun after ends => (same after).trans (h after ends)

theorem Decides.refused_behind {reader : Bytes → Read α} {bytes : Bytes} (cause : Cause)
    (h : ∀ after, Scan.EndsNumber after → reader (bytes ++ after) = .error (.before cause after)) :
    Decides reader bytes none := by
  refine .refused (.before cause []) fun after ends => (h after ends).trans ?_
  exact congrArg Except.error (Fault.before_append cause [] after)

namespace Term

def text? : Term → Option String
  | text s => some s
  | _ => none

def number? : Term → Option Number
  | number n => n.value?
  | _ => none

def optionalText? : Term → Option (Option String)
  | null => some none
  | text s => some (some s)
  | _ => none

def scalar : Term → Except Fault Value
  | boolean b => .ok (.boolean b)
  | number n => n.reading.map .number
  | text s => .ok (.text s)
  | _ => .ok .null

theorem number?_eq (t : Term) :
    t.number? = match t.scalar with
      | .ok (.number n) => some n
      | _ => none := by
  cases t with
  | number n =>
    simp only [number?, scalar, Numeral.value?]
    cases n.reading <;> rfl
  | _ => rfl

end Term

theorem readNumber_eq (negative : Bool) (input : Bytes) :
    Value.readNumber negative input =
      (Scan.number negative input).map fun x => (.number x.1, x.2) := by
  unfold Value.readNumber
  rcases Scan.number negative input with fault | ⟨x, left⟩ <;> rfl

theorem settles_readScalar_numeral {n : Numeral} {byte : UInt8} {rest : Bytes}
    (start : n.text = byte :: rest) :
    Settles (Value.readScalar byte) rest (n.reading.map .number) := by
  intro after ends
  have read := n.settles after ends
  have same : Value.readScalar byte (rest ++ after) =
      (Field.number (n.text ++ after)).map fun x => (.number x.1, x.2) := by
    rw [Numeral.text] at start ⊢
    cases negative : n.negative with
    | true =>
      rw [negative, if_pos rfl] at start
      obtain ⟨rfl, rfl⟩ := List.cons.inj start
      rw [if_pos rfl, List.cons_append, Field.number_of_minus]
      exact readNumber_eq _ _
    | false =>
      rw [negative, if_neg (by decide)] at start
      obtain ⟨first, others, start', digit⟩ := n.unsigned_eq_cons
      obtain ⟨rfl, rfl⟩ := List.cons.inj (start.symm.trans start')
      have ne : ∀ other, Scan.isDigit other = false → byte ≠ other := by
        rintro other ho rfl
        exact absurd digit (by simp [ho])
      rw [if_neg (by decide), start, List.cons_append, Field.number_of_isDigit digit]
      rw [← readNumber_eq]
      simp only [Value.readScalar, if_neg (ne 0x6e (by decide)), if_neg (ne 0x74 (by decide)),
        if_neg (ne 0x66 (by decide)), if_neg (ne 0x2d (by decide)), digit, if_true]
  rw [same, read]
  cases n.reading with
  | ok x => rfl
  | error fault => rfl

theorem Spells.scalar_cases {t : Term} {byte : UInt8} {rest : Bytes}
    (h : Spells (.value t) (byte :: rest)) :
    (byte = 0x5b ∧ ∃ items, t = .list items) ∨ (byte = 0x7b ∧ ∃ members, t = .record members) ∨
      byte ≠ 0x5b ∧ byte ≠ 0x7b ∧ Settles (Value.readScalar byte) rest t.scalar := by
  generalize same : byte :: rest = bytes at h
  cases h with
  | list h hb => exact .inl ⟨(List.cons.inj same).1, _, rfl⟩
  | record h hb => exact .inr (.inl ⟨(List.cons.inj same).1, _, rfl⟩)
  | number n =>
    obtain ⟨byte', rest', start, number⟩ := n.text_eq_cons
    obtain ⟨rfl, rfl⟩ := List.cons.inj (same.trans start)
    refine .inr (.inr ⟨?_, ?_, settles_readScalar_numeral start⟩)
    · rintro rfl
      exact absurd number (by decide)
    · rintro rfl
      exact absurd number (by decide)
  | text h =>
    obtain ⟨rfl, rfl⟩ := List.cons.inj same
    refine .inr (.inr ⟨by decide, by decide, fun after _ => ?_⟩)
    change Value.readText _ = _
    rw [Value.readText, List.append_assoc, List.singleton_append, Scan.text_spelled h]
    rfl
  | null =>
    obtain ⟨rfl, rfl⟩ := List.cons.inj same
    exact .inr (.inr ⟨by decide, by decide, fun after _ => rfl⟩)
  | yes =>
    obtain ⟨rfl, rfl⟩ := List.cons.inj same
    exact .inr (.inr ⟨by decide, by decide, fun after _ => rfl⟩)
  | no =>
    obtain ⟨rfl, rfl⟩ := List.cons.inj same
    exact .inr (.inr ⟨by decide, by decide, fun after _ => rfl⟩)

theorem Spells.quote_cases {t : Term} {byte : UInt8} {rest : Bytes}
    (h : Spells (.value t) (byte :: rest)) :
    (byte = 0x22 ∧ ∃ s key, t = .text s ∧ rest = key ++ [0x22] ∧ SpellsChars s.toList key) ∨
      byte ≠ 0x22 ∧ t.text? = none := by
  generalize same : byte :: rest = bytes at h
  cases h with
  | text h =>
    obtain ⟨rfl, rfl⟩ := List.cons.inj same
    exact .inl ⟨rfl, _, _, rfl, rfl, h⟩
  | number n =>
    obtain ⟨byte', rest', start, number⟩ := n.text_eq_cons
    obtain ⟨rfl, rfl⟩ := List.cons.inj (same.trans start)
    refine .inr ⟨?_, rfl⟩
    rintro rfl
    exact absurd number (by decide)
  | _ =>
    obtain ⟨rfl, -⟩ := List.cons.inj same
    exact .inr ⟨by decide, rfl⟩

theorem Spells.null_cases {t : Term} {byte : UInt8} {rest : Bytes}
    (h : Spells (.value t) (byte :: rest)) :
    (byte = 0x6e ∧ t = .null ∧ rest = [0x75, 0x6c, 0x6c]) ∨
      byte ≠ 0x6e ∧ t.optionalText? = t.text?.map some := by
  generalize same : byte :: rest = bytes at h
  cases h with
  | null =>
    obtain ⟨rfl, rfl⟩ := List.cons.inj same
    exact .inl ⟨rfl, rfl, rfl⟩
  | number n =>
    obtain ⟨byte', rest', start, number⟩ := n.text_eq_cons
    obtain ⟨rfl, rfl⟩ := List.cons.inj (same.trans start)
    refine .inr ⟨?_, rfl⟩
    rintro rfl
    exact absurd number (by decide)
  | _ =>
    obtain ⟨rfl, -⟩ := List.cons.inj same
    exact .inr ⟨by decide, rfl⟩

theorem Field.unexpected_spelled (expected : String) {t : Term} {byte : UInt8} {rest : Bytes}
    (h : Spells (.value t) (byte :: rest)) :
    ∃ fault : Fault, ∀ after, Scan.EndsNumber after →
      unexpected expected byte (rest ++ after) = fault.ahead after.length := by
  rcases h.scalar_cases with ⟨rfl, -⟩ | ⟨rfl, -⟩ | ⟨list, record, settles⟩
  · exact ⟨_, fun after _ => Fault.before_append (.wrongType .list expected) (0x5b :: rest) after⟩
  · exact ⟨_, fun after _ => Fault.before_append (.wrongType .record expected) (0x7b :: rest) after⟩
  · cases outcome : t.scalar with
    | ok v =>
      refine ⟨.before (.wrongType (found v) expected) [], fun after ends => ?_⟩
      rw [← Fault.before_append, unexpected, if_neg list, if_neg record, settles after ends,
        outcome]
      rfl
    | error fault =>
      refine ⟨fault, fun after ends => ?_⟩
      rw [unexpected, if_neg list, if_neg record, settles after ends, outcome]
      rfl

namespace Field

theorem leading_cons (reader : UInt8 → Bytes → Read α) {byte : UInt8} {rest : Bytes}
    (h : Scan.isBlank byte = false) : leading reader (byte :: rest) = reader byte rest := by
  rw [leading, skipBlank_cons h]

theorem leading_blanks (reader : UInt8 → Bytes → Read α) {blanks : Bytes} (h : Blanks blanks)
    (input : Bytes) : leading reader (blanks ++ input) = leading reader input := by
  rw [leading, leading, skipBlank_append h]

theorem text_blanks {blanks : Bytes} (h : Blanks blanks) (input : Bytes) :
    text (blanks ++ input) = text input :=
  leading_blanks _ h input

theorem number_blanks {blanks : Bytes} (h : Blanks blanks) (input : Bytes) :
    number (blanks ++ input) = number input :=
  leading_blanks _ h input

theorem optional_blanks (reader : Bytes → Read α) {blanks : Bytes} (h : Blanks blanks)
    (input : Bytes) : optional reader (blanks ++ input) = optional reader input := by
  rw [optional, optional, skipBlank_append h]

variable {t : Term} {bytes : Bytes}

theorem decides_text (h : Spells (.value t) bytes) : Decides text bytes t.text? := by
  obtain ⟨byte, rest, rfl, blank, -⟩ := h.start
  rcases h.quote_cases with ⟨rfl, s, key, rfl, rfl, hk⟩ | ⟨other, none⟩
  · refine .taken fun after _ => ?_
    rw [List.cons_append, text, leading_cons _ blank, if_pos rfl, List.append_assoc]
    exact Scan.text_spelled hk after
  · obtain ⟨fault, refused⟩ := unexpected_spelled "a string" h
    rw [none]
    refine .refused fault fun after ends => ?_
    rw [List.cons_append, text, leading_cons _ blank, if_neg other, refused after ends]
    rfl

theorem decides_optionalText (h : Spells (.value t) bytes) :
    Decides (optional text) bytes t.optionalText? := by
  obtain ⟨byte, rest, rfl, blank, -⟩ := h.start
  rcases h.null_cases with ⟨rfl, rfl, rfl⟩ | ⟨other, same⟩
  · exact .taken fun after _ => rfl
  · have skip : ∀ after, optional text (byte :: (rest ++ after)) =
        (text (byte :: (rest ++ after))).map fun x => (some x.1, x.2) := by
      intro after
      rw [optional, skipBlank_cons blank]
      simp only [if_neg other]
      rcases text (byte :: (rest ++ after)) with fault | ⟨s, left⟩ <;> rfl
    have read := decides_text h
    rw [same]
    generalize t.text? = expected at read ⊢
    cases read with
    | taken settles =>
      refine .taken fun after ends => ?_
      rw [List.cons_append, skip, ← List.cons_append, settles after ends]
      rfl
    | refused fault settles =>
      refine .refused fault fun after ends => ?_
      rw [List.cons_append, skip, ← List.cons_append, settles after ends]
      rfl

theorem listEnd_spelled {items : List Term} {blanks : Bytes} (h : Spells (.items true items) bytes)
    (hb : Blanks blanks) :
    ∃ left, ∀ after, (Scan.listEnd (bytes ++ (blanks ++ [0x5d]) ++ after)).2 = left ++ after := by
  cases h with
  | noItem =>
    refine ⟨[], fun after => ?_⟩
    simp [Scan.listEnd, skipBlank_append_cons hb (show Scan.isBlank 0x5d = false by decide)]
  | @item _ gap bytes bytes' t items hg h others =>
    obtain ⟨byte, rest, rfl, blank, closing, comma⟩ := h.start
    cases hg with
    | first hg =>
      refine ⟨byte :: (rest ++ bytes') ++ (blanks ++ [0x5d]), fun after => ?_⟩
      simp [Scan.listEnd, skipBlank_append_cons hg blank, closing, comma]

theorem recordEnd_spelled {members : List (String × Term)} {blanks : Bytes}
    (h : Spells (.members true members) bytes) (hb : Blanks blanks) :
    ∃ left, ∀ after, (Scan.recordEnd (bytes ++ (blanks ++ [0x7d]) ++ after)).2 = left ++ after := by
  cases h with
  | noMember =>
    refine ⟨[], fun after => ?_⟩
    simp [Scan.recordEnd, skipBlank_append_cons hb (show Scan.isBlank 0x7d = false by decide)]
  | @member _ gap key before blanks' bytes bytes' name t members hg hk hb' ha h others =>
    cases hg with
    | first hg =>
      refine ⟨0x22 :: (key ++ 0x22 :: (before ++ 0x3a :: (blanks' ++ (bytes ++ bytes')))) ++
        (blanks ++ [0x7d]), fun after => ?_⟩
      simp [Scan.recordEnd, skipBlank_append_cons hg (show Scan.isBlank 0x22 = false by decide)]

theorem number_of_scalar {byte : UInt8} {input : Bytes} (blank : Scan.isBlank byte = false)
    (list : byte ≠ 0x5b) (record : byte ≠ 0x7b) :
    number (byte :: input) = match Value.readScalar byte input with
      | .error fault => .error fault
      | .ok (.number n, left) => .ok (n, left)
      | .ok (v, left) => .error (.before (.wrongType (found v) "a JSON number") left) := by
  rw [number, leading_cons _ blank]
  rcases Value.readScalar byte input with fault | ⟨v, left⟩
  · simp only [if_neg list, if_neg record]
  · cases v <;> simp only [if_neg list, if_neg record]

theorem decides_number (h : Spells (.value t) bytes) : Decides number bytes t.number? := by
  obtain ⟨byte, rest, rfl, blank, -⟩ := h.start
  rcases h.scalar_cases with ⟨rfl, items, rfl⟩ | ⟨rfl, members, rfl⟩ | ⟨list, record, settles⟩
  · cases h with
    | list h hb =>
      obtain ⟨left, ending⟩ := listEnd_spelled h hb
      refine .refused (.before (.wrongType .list "a JSON number") left) fun after _ => ?_
      rw [List.cons_append, number, leading_cons _ blank]
      simp only [if_true, ending, Fault.before_append]
      rfl
  · cases h with
    | record h hb =>
      obtain ⟨left, ending⟩ := recordEnd_spelled h hb
      refine .refused (.before (.wrongType .record "a JSON number") left) fun after _ => ?_
      rw [List.cons_append, number, leading_cons _ blank]
      simp only [if_true, ending, Fault.before_append]
      rfl
  · rw [t.number?_eq]
    generalize t.scalar = outcome at settles ⊢
    rcases outcome with fault | v
    · refine .refused fault fun after ends => ?_
      rw [List.cons_append, number_of_scalar blank list record, settles after ends]
      rfl
    · cases v with
      | number n =>
        refine .taken fun after ends => ?_
        rw [List.cons_append, number_of_scalar blank list record, settles after ends]
        rfl
      | _ =>
        apply Decides.refused_behind
        intro after ends
        rw [List.cons_append, number_of_scalar blank list record, settles after ends]
        rfl

end Field

def Stop.placed (ending : Bytes → Option Fault × Bytes) : Stop → Fault
  | .fault placed => placed
  | .refusal cause input => .before cause (ending input).2

theorem Field.enclosed_error (ending : Bytes → Option Fault × Bytes) (stop : Stop) :
    enclosed ending (.error stop : Except Stop (α × Bytes)) = .error (stop.placed ending) := by
  cases stop <;> rfl

/-- Between brackets: the reader takes these bytes as the given value, or stops if there is none. -/
inductive Concludes (ending : Bytes → Option Fault × Bytes)
    (reader : Bytes → Except Stop (α × Bytes)) (bytes : Bytes) : Option α → Prop
  | taken {a : α} (h : ∀ after, Scan.EndsNumber after → reader (bytes ++ after) = .ok (a, after)) :
    Concludes ending reader bytes (some a)
  | refused (fault : Fault) (h : ∀ after, Scan.EndsNumber after → ∃ stop,
      reader (bytes ++ after) = .error stop ∧ stop.placed ending = fault.ahead after.length) :
    Concludes ending reader bytes none

theorem Concludes.map {ending : Bytes → Option Fault × Bytes}
    {reader : Bytes → Except Stop (α × Bytes)} {bytes : Bytes} {expected : Option α}
    (h : Concludes ending reader bytes expected) (f : α → β) :
    Concludes ending (fun input => reader input >>= fun x => .ok (f x.1, x.2)) bytes
      (expected.map f) := by
  cases h with
  | taken h => exact .taken fun after ends => by rw [h after ends]; rfl
  | refused fault h =>
    refine .refused fault fun after ends => ?_
    obtain ⟨stop, stopped, placed⟩ := h after ends
    exact ⟨stop, by rw [stopped]; rfl, placed⟩

inductive SpellsField (t : Term) : Bytes → Prop
  | mk {before after bytes : Bytes} (hb : Blanks before) (ha : Blanks after)
      (h : Spells (.value t) bytes) : SpellsField t (before ++ 0x3a :: (after ++ bytes))

namespace Field

variable {ending : Bytes → Option Fault × Bytes} {t : Term} {bytes : Bytes}

theorem concludes_value {reader : Bytes → Read α} {expected : Option α}
    (ignores : ∀ {blanks}, Blanks blanks → ∀ input, reader (blanks ++ input) = reader input)
    (decides : ∀ {bytes}, Spells (.value t) bytes → Decides reader bytes expected)
    (h : SpellsField t bytes) : Concludes ending (value reader) bytes expected := by
  obtain ⟨hb, ha, h⟩ := h
  rename_i before blanks bytes
  have read : ∀ after, value reader (before ++ 0x3a :: (blanks ++ bytes) ++ after) =
      lift (reader (bytes ++ after)) := by
    intro after
    rw [List.append_assoc, List.cons_append, List.append_assoc, value, Scan.colon_spelled hb]
    simp only [ignores ha]
  cases decides h with
  | taken settles => exact .taken fun after ends => by rw [read, settles after ends]; rfl
  | refused fault settles =>
    refine .refused fault fun after ends => ⟨.fault (fault.ahead after.length), ?_, rfl⟩
    rw [read, settles after ends]
    rfl

theorem concludes_once {reader : Bytes → Read α} {expected : Option α} (name : String)
    (present : Bool)
    (ignores : ∀ {blanks}, Blanks blanks → ∀ input, reader (blanks ++ input) = reader input)
    (decides : ∀ {bytes}, Spells (.value t) bytes → Decides reader bytes expected)
    (h : SpellsField t bytes) :
    Concludes Scan.recordEnd (once name present reader) bytes
      (if present then none else expected) := by
  cases present with
  | false => exact concludes_value ignores decides h
  | true =>
    obtain ⟨hb, ha, h⟩ := h
    rename_i before blanks bytes
    refine .refused (.before (.repeatedField name) (0x3a :: (blanks ++ bytes))) fun after ends => ?_
    refine ⟨.refusal (.repeatedField name) _, rfl, ?_⟩
    rw [← Fault.before_append, Stop.placed, List.append_assoc, List.cons_append, Scan.recordEnd,
      skipBlank_append_cons hb (by decide)]
    rfl

theorem skipped_spelled (h : SpellsField t bytes) {after : Bytes} (ends : Scan.EndsNumber after) :
    skipped (bytes ++ after) = .ok after := by
  obtain ⟨hb, ha, h⟩ := h
  rw [List.append_assoc, List.cons_append, List.append_assoc, skipped, Scan.colon_spelled hb]
  simp only [Skip.value_spelled h ha ends]
  rfl

end Field

theorem Scan.nextKey_spelled {first : Bool} {gap : Bytes} (hg : Gap first gap) (rest : Bytes) :
    nextKey first (gap ++ 0x22 :: rest) = .ok (true, rest) := by
  cases hg with
  | first h =>
    rw [nextKey, skipBlank_append_cons h (by decide)]
    rfl
  | next h h' =>
    rw [List.append_assoc, List.cons_append, nextKey, skipBlank_append_cons h (by decide)]
    simp [skipBlank_append_cons h' (show isBlank 0x22 = false by decide)]

theorem Scan.nextKey_closing (first : Bool) {blanks : Bytes} (h : Blanks blanks) (rest : Bytes) :
    nextKey first (blanks ++ 0x7d :: rest) = .ok (false, 0x7d :: rest) := by
  rw [nextKey, skipBlank_append_cons h (by decide)]
  rfl

namespace Field

variable {field : σ → String → Bytes → Except Stop (σ × Bytes)}
    {next : σ → String → Term → Option σ}

def walk (next : σ → String → Term → Option σ) (state : σ) (members : List (String × Term)) :
    Option σ :=
  members.foldlM (fun s m => next s m.1 m.2) state

inductive Walks (field : σ → String → Bytes → Except Stop (σ × Bytes)) (first : Bool) (state : σ)
    (bytes : Bytes) (count : Nat) : Option σ → Prop
  | through {state' : σ} (h : ∀ rounds after, Scan.EndsNumber after →
      members field (rounds + count) first state (bytes ++ after) =
        members field rounds (first && count = 0) state' after) :
    Walks field first state bytes count (some state')
  | stopped (fault : Fault) (h : ∀ rounds after, Scan.EndsNumber after → ∃ stop,
      members field (rounds + count) first state (bytes ++ after) = .error stop ∧
        stop.placed Scan.recordEnd = fault.ahead after.length) :
    Walks field first state bytes count none

theorem members_member {first : Bool} {gap key : Bytes} {name : String} (hg : Gap first gap)
    (hk : SpellsChars name.toList key) (rounds : Nat) (state : σ) (rest : Bytes) :
    members field (rounds + 1) first state (gap ++ 0x22 :: (key ++ 0x22 :: rest)) =
      field state name rest >>= fun x => members field rounds false x.1 x.2 := by
  rw [members, Scan.nextKey_spelled hg]
  simp only [Scan.text_spelled hk]
  rcases field state name rest with stop | ⟨state, rest⟩ <;> rfl

theorem walks_members
    (takes : ∀ state name t bytes, SpellsField t bytes →
      Concludes Scan.recordEnd (field state name) bytes (next state name t))
    {first : Bool} {written : List (String × Term)} {bytes : Bytes}
    (h : Spells (.members first written) bytes) (state : σ) :
    Walks field first state bytes written.length (walk next state written) := by
  induction written generalizing first bytes state with
  | nil =>
    cases h
    exact .through fun rounds after _ => by simp
  | cons m written ih =>
    cases h with
    | @member _ gap key before blanks bytes bytes' name t _ hg hk hb ha h others =>
      have taking := takes state name t _ (.mk hb ha h)
      have read : ∀ rounds after, members field (rounds + (written.length + 1)) first state
          (gap ++ 0x22 :: (key ++ 0x22 :: (before ++ 0x3a :: (blanks ++ (bytes ++ bytes')))) ++
            after) =
            field state name (before ++ 0x3a :: (blanks ++ bytes) ++ (bytes' ++ after)) >>=
              fun x => members field (rounds + written.length) false x.1 x.2 := by
        intro rounds after
        rw [← members_member hg hk]
        simp only [List.append_assoc, List.cons_append, Nat.add_assoc]
      rw [walk, List.foldlM_cons]
      generalize next state name t = expected at taking ⊢
      cases taking with
      | refused fault stops =>
        refine .stopped (fault.ahead bytes'.length) fun rounds after ends => ?_
        obtain ⟨stop, stopped, placed⟩ := stops (bytes' ++ after) (others.endsNumber_members ends)
        refine ⟨stop, ?_, placed.trans (fault.ahead_append bytes' after)⟩
        rw [List.length_cons, read, stopped]
        rfl
      | @taken state' takes =>
        have step : ∀ rounds after, Scan.EndsNumber after →
            members field (rounds + (written.length + 1)) first state
              (gap ++ 0x22 :: (key ++ 0x22 :: (before ++ 0x3a :: (blanks ++ (bytes ++ bytes')))) ++
                after) =
                  members field (rounds + written.length) false state' (bytes' ++ after) := by
          intro rounds after ends
          rw [read, takes _ (others.endsNumber_members ends), ok_bind]
        have rest := ih others state'
        change Walks field first state _ _ (walk next state' written)
        generalize walk next state' written = last at rest ⊢
        cases rest with
        | through through =>
          refine .through fun rounds after ends => ?_
          rw [List.length_cons, step rounds after ends, through rounds after ends]
          simp
        | stopped fault stops =>
          refine .stopped fault fun rounds after ends => ?_
          rw [List.length_cons, step rounds after ends]
          exact stops rounds after ends

theorem length_le_of_spells {first : Bool} {written : List (String × Term)} {bytes : Bytes}
    (h : Spells (.members first written) bytes) : written.length ≤ bytes.length := by
  induction written generalizing first bytes with
  | nil => simp
  | cons m written ih =>
    cases h with
    | member hg hk hb ha h others =>
      have shorter := ih others
      simp only [List.length_cons, List.length_append]
      omega

theorem allMembers_spelled
    (takes : ∀ state name t bytes, SpellsField t bytes →
      Concludes Scan.recordEnd (field state name) bytes (next state name t))
    {written : List (String × Term)} {bytes blanks : Bytes}
    (h : Spells (.members true written) bytes) (hb : Blanks blanks) (state : σ) :
    (∃ state', walk next state written = some state' ∧ ∀ after,
        allMembers field state (bytes ++ (blanks ++ 0x7d :: after)) = .ok (state', 0x7d :: after)) ∨
      walk next state written = none ∧ ∃ fault : Fault, ∀ after, ∃ stop,
        allMembers field state (bytes ++ (blanks ++ 0x7d :: after)) = .error stop ∧
          stop.placed Scan.recordEnd = fault.ahead after.length := by
  have enough : ∀ after : Bytes, ∃ rounds,
      (bytes ++ (blanks ++ 0x7d :: after)).length + 1 = rounds + 1 + written.length := by
    intro after
    have shorter := length_le_of_spells h
    refine ⟨(bytes ++ (blanks ++ 0x7d :: after)).length - written.length, ?_⟩
    rw [List.length_append]
    omega
  have ends : ∀ after, Scan.EndsNumber (blanks ++ 0x7d :: after) := fun after =>
    hb.endsNumber (Scan.endsNumber_cons (by decide))
  have walks := walks_members takes h state
  generalize walk next state written = expected at walks
  cases walks with
  | @through state' through =>
    refine .inl ⟨state', rfl, fun after => ?_⟩
    obtain ⟨rounds, count⟩ := enough after
    rw [allMembers, count, through _ _ (ends after), members, Scan.nextKey_closing _ hb]
  | stopped fault stops =>
    refine .inr ⟨rfl, fault.ahead (blanks ++ [0x7d]).length, fun after => ?_⟩
    obtain ⟨rounds, count⟩ := enough after
    obtain ⟨stop, stopped, placed⟩ := stops (rounds + 1) _ (ends after)
    refine ⟨stop, by rw [allMembers, count, stopped], placed.trans ?_⟩
    rw [← Fault.ahead_append, List.append_assoc, List.singleton_append]

end Field

theorem Scan.nextElement_spelled {first : Bool} {gap : Bytes} (hg : Gap first gap) {byte : UInt8}
    (blank : isBlank byte = false) (closing : byte ≠ 0x5d) (rest : Bytes) :
    nextElement first (gap ++ byte :: rest) = .ok (true, byte :: rest) := by
  cases hg with
  | first h =>
    rw [nextElement, skipBlank_append_cons h blank]
    simp [closing]
  | next h h' =>
    rw [List.append_assoc, List.cons_append, nextElement, skipBlank_append_cons h (by decide)]
    simp [skipBlank_append_cons h' blank, closing]

theorem Scan.nextElement_closing (first : Bool) {blanks : Bytes} (h : Blanks blanks)
    (rest : Bytes) :
    nextElement first (blanks ++ 0x5d :: rest) = .ok (false, 0x5d :: rest) := by
  rw [nextElement, skipBlank_append_cons h (by decide)]
  rfl

theorem Scan.listEnd_closing {blanks : Bytes} (h : Blanks blanks) (rest : Bytes) :
    listEnd (blanks ++ 0x5d :: rest) = (none, rest) := by
  rw [listEnd, skipBlank_append_cons h (by decide)]
  rfl

namespace Field

def Closes (reader : Bytes → Except Stop (α × Bytes)) (first : Bool) (items : List Term)
    (expected : Option α) : Prop :=
  ∀ bytes blanks, Spells (.items first items) bytes → Blanks blanks →
    Decides (fun input => enclosed Scan.listEnd (reader input))
      (bytes ++ (blanks ++ [0x5d])) expected

variable {t : Term} {items : List Term}

theorem closes_end (a : α) (items : List Term) :
    Closes (fun input => .ok (a, input)) false items (if items = [] then some a else none) := by
  intro bytes blanks h hb
  cases h with
  | noItem =>
    rw [if_pos rfl]
    refine .taken fun after _ => ?_
    simp only [List.nil_append, List.append_assoc, List.singleton_append, enclosed,
      Scan.listEnd_closing hb]
    rfl
  | @item _ gap bytes bytes' t items hg h others =>
    obtain ⟨byte, rest, rfl, blank, closing, -⟩ := h.start
    rw [if_neg (List.cons_ne_nil _ _)]
    cases hg with
    | next hg hg' =>
      refine .refused (.looking .trailingText (byte :: (rest ++ bytes' ++ (blanks ++ [0x5d]))))
        fun after _ => ?_
      simp [enclosed, Scan.listEnd,
        skipBlank_append_cons hg (show Scan.isBlank 0x2c = false by decide),
        skipBlank_append_cons hg' blank, closing, leaving, Fault.looking, Fault.ahead]
      omega

variable {reader : Bytes → Read α} {expected : Option α} {later : α → Option β}
  (rest : α → Bytes → Except Stop (β × Bytes))

theorem closes_cons {position : Nat} {cons : Bytes → Except Stop (α × Bytes)}
    (decides : ∀ {bytes}, Spells (.value t) bytes → Decides reader bytes expected)
    (opens : ∀ gap byte tail, Gap (position = 0) gap → Scan.isBlank byte = false → byte ≠ 0x5d →
      cons (gap ++ byte :: tail) = lift (reader (byte :: tail)))
    (closes : ∀ a, Closes (rest a) false items (later a)) :
    Closes (fun input => cons input >>= fun x => rest x.1 x.2) (position = 0) (t :: items)
      (expected.bind later) := by
  intro bytes blanks h hb
  cases h with
  | @item _ gap bytes bytes' _ _ hg h others =>
    have ends : ∀ after, Scan.EndsNumber (bytes' ++ (blanks ++ [0x5d]) ++ after) := by
      intro after
      rw [List.append_assoc, List.append_assoc]
      exact others.endsNumber_items (hb.endsNumber (Scan.endsNumber_cons (by decide)))
    have read : ∀ after, cons (gap ++ (bytes ++ bytes') ++ (blanks ++ [0x5d]) ++ after) =
        lift (reader (bytes ++ (bytes' ++ (blanks ++ [0x5d]) ++ after))) := by
      intro after
      obtain ⟨byte, tail, rfl, blank, closing, -⟩ := h.start
      simp only [List.append_assoc, List.cons_append]
      exact opens gap byte _ hg blank closing
    cases decides h with
    | refused fault settles =>
      refine .refused (fault.ahead (bytes' ++ (blanks ++ [0x5d])).length) fun after _ => ?_
      simp only [read, settles _ (ends after)]
      exact congrArg Except.error (fault.ahead_append _ after)
    | @taken a settles =>
      have step : ∀ after, enclosed Scan.listEnd
          (cons (gap ++ (bytes ++ bytes') ++ (blanks ++ [0x5d]) ++ after) >>= fun x =>
            rest x.1 x.2) =
            enclosed Scan.listEnd (rest a (bytes' ++ (blanks ++ [0x5d]) ++ after)) := by
        intro after
        simp only [read, settles _ (ends after)]
        rfl
      have last := closes a bytes' blanks others hb
      rw [Option.bind_some]
      generalize later a = expected at last ⊢
      cases last with
      | taken settles => exact .taken fun after ends => (step after).trans (settles after ends)
      | refused fault settles =>
        exact .refused fault fun after ends => (step after).trans (settles after ends)

theorem item_opens {position : Nat} (type : String) (reader : Bytes → Read α) (gap : Bytes)
    (byte : UInt8) (tail : Bytes) (hg : Gap (position = 0) gap) (blank : Scan.isBlank byte = false)
    (closing : byte ≠ 0x5d) :
    item position type reader (gap ++ byte :: tail) = lift (reader (byte :: tail)) := by
  rw [item, Scan.nextElement_spelled hg blank closing]

theorem lastItem_opens {position : Nat} (default : α) (reader : Bytes → Read α) (gap : Bytes)
    (byte : UInt8) (tail : Bytes) (hg : Gap (position = 0) gap) (blank : Scan.isBlank byte = false)
    (closing : byte ≠ 0x5d) :
    lastItem position default reader (gap ++ byte :: tail) = lift (reader (byte :: tail)) := by
  rw [lastItem, Scan.nextElement_spelled hg blank closing]

theorem closes_item_nil (position : Nat) (type : String) :
    Closes (fun input => item position type reader input >>= fun x => rest x.1 x.2)
      (position = 0) [] none := by
  intro bytes blanks h hb
  cases h
  refine .refused (.before (.wrongLength position type) []) fun after _ => ?_
  have stops : item position type reader ([] ++ (blanks ++ [0x5d]) ++ after) =
      .error (.refusal (.wrongLength position type) (0x5d :: after)) := by
    rw [List.nil_append, List.append_assoc, List.singleton_append, item,
      Scan.nextElement_closing _ hb]
  simp only [stops]
  exact congrArg Except.error (Fault.before_append _ [] after)

theorem closes_lastItem_nil (position : Nat) {default : α} {expected : Option β}
    (closes : Closes (rest default) false [] expected) :
    Closes (fun input => lastItem position default reader input >>= fun x => rest x.1 x.2)
      (position = 0) [] expected := by
  intro bytes blanks h hb
  cases h
  have last := closes [] [] (.noItem false) blanks_nil
  have step : ∀ after, lastItem position default reader ([] ++ (blanks ++ [0x5d]) ++ after) =
      .ok (default, 0x5d :: after) := by
    intro after
    rw [List.nil_append, List.append_assoc, List.singleton_append, lastItem,
      Scan.nextElement_closing _ hb]
  cases last with
  | taken settles =>
    refine .taken fun after ends => ?_
    simp only [step]
    exact settles after ends
  | refused fault settles =>
    refine .refused fault fun after ends => ?_
    simp only [step]
    exact settles after ends

end Field

end AccountVault.Json
