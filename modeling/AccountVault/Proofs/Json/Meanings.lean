import Mathlib
import AccountVault.Proofs.Json.Fields
import AccountVault.Proofs.Json.Values

/-!
# What a JSON text means

A term means a value: the members of a record stay in their order, repeated names included, and a
number is the one its digits are read as. The reader of values finds the meaning in every text of
the term, however it is spaced and however its characters are written. The induction is on the
depth, since each list and record costs the reader one of it; inside a list or record it is on the
spelling.
-/

namespace AccountVault.Json

/-- What the term means to a reader that enters so many lists and records one inside another. A
number that is too large has no meaning. -/
def Term.value? : (depth : Nat) → Term → Option Value
  | _, null => some .null
  | _, boolean b => some (.boolean b)
  | _, number n => n.value?.map .number
  | _, text s => some (.text s)
  | 0, list _ => none
  | 0, record _ => none
  | depth + 1, list items => (items.mapM (value? depth)).map .list
  | depth + 1, record members =>
    (members.mapM fun m => (value? depth m.2).map (m.1, ·)).map .record

def SpellsRecord (members : List (String × Value)) (text : Bytes) : Prop :=
  ∃ terms lead bytes trail, Blanks lead ∧ Spells (.value (.record terms)) bytes ∧ Blanks trail ∧
    text = lead ++ (bytes ++ trail) ∧
      (Term.record terms).value? Value.deepest = some (.record members)

theorem Term.scalar_of_value? {depth : Nat} {t : Term} {v : Value} (h : t.value? depth = some v)
    (list : ∀ items, t ≠ .list items) (record : ∀ members, t ≠ .record members) :
    t.scalar = .ok v := by
  cases t with
  | list items => exact absurd rfl (list items)
  | record members => exact absurd rfl (record members)
  | number n =>
    obtain ⟨x, read, rfl⟩ := Option.map_eq_some_iff.1 (by simpa only [value?] using h)
    rw [scalar]
    unfold Numeral.value? at read
    cases reading : n.reading with
    | error fault => simp [reading, Except.toOption] at read
    | ok y =>
      rw [reading] at read
      obtain rfl := Option.some.inj read
      rfl
  | _ => exact congrArg Except.ok (Option.some.inj (by simpa only [value?] using h))

namespace Value

theorem readValue_blanks (depth : Nat) {blanks : Bytes} (hb : Blanks blanks) (input : Bytes) :
    readValue depth (blanks ++ input) = readValue depth input := by
  rw [readValue.eq_def, readValue.eq_def depth input]
  simp only [skipBlank_append hb]

theorem settles_scalar {depth : Nat} {t : Term} {bytes : Bytes} {v : Value}
    (h : Spells (.value t) bytes) (list : ∀ items, t ≠ .list items)
    (record : ∀ members, t ≠ .record members) (meaning : t.value? depth = some v) :
    Settles (readValue depth) bytes (.ok v) := by
  intro after ends
  obtain ⟨byte, rest, rfl, blank, -⟩ := h.start
  obtain ⟨-, items, rfl⟩ | ⟨-, members, rfl⟩ | ⟨bracket, brace, settles⟩ := h.scalar_cases
  · exact absurd rfl (list items)
  · exact absurd rfl (record members)
  · rw [List.cons_append, readValue_scalar (skipBlank_cons blank) bracket brace, settles after ends,
      Term.scalar_of_value? meaning list record]

variable {item : Bytes → Read Value} {meaning : Term → Option Value}

/-- A reader of items takes each term for what it means, with blanks before it or none. -/
def Understands (item : Bytes → Read Value) (meaning : Term → Option Value) : Prop :=
  ∀ t bytes v blanks, Spells (.value t) bytes → meaning t = some v → Blanks blanks →
    Settles item (blanks ++ bytes) (.ok v)

theorem readItems_spelled (understands : Understands item meaning) {first : Bool}
    {items : List Term} {bytes blanks : Bytes} {values : List Value}
    (h : Spells (.items first items) bytes) (hv : items.mapM meaning = some values)
    (hb : Blanks blanks) (rounds : Nat) (enough : items.length < rounds) (seen : List Value)
    (after : Bytes) :
    readItems item rounds first seen (bytes ++ (blanks ++ 0x5d :: after)) =
      .ok (seen.reverse ++ values, 0x5d :: after) := by
  induction items generalizing first bytes values rounds seen with
  | nil =>
    cases h
    obtain ⟨rounds, rfl⟩ := Nat.exists_eq_succ_of_ne_zero (Nat.ne_zero_of_lt enough)
    obtain rfl : [] = values := by simpa using hv
    rw [List.nil_append, readItems, Scan.nextElement_closing first hb, List.append_nil]
  | cons t items ih =>
    cases h with
    | @item _ gap bytes bytes' _ _ hg h others =>
      obtain ⟨v, meant, rest, means, rfl⟩ : ∃ v, meaning t = some v ∧
          ∃ rest, items.mapM meaning = some rest ∧ v :: rest = values := by
        simpa [List.mapM_cons, Option.bind_eq_some_iff] using hv
      obtain ⟨rounds, rfl⟩ := Nat.exists_eq_succ_of_ne_zero (Nat.ne_zero_of_lt enough)
      rw [List.length_cons] at enough
      have ends : Scan.EndsNumber (bytes' ++ (blanks ++ 0x5d :: after)) :=
        others.endsNumber_items (hb.endsNumber (Scan.endsNumber_cons (by decide)))
      have read := understands t bytes v [] h meant blanks_nil _ ends
      have further := ih others means rounds (by omega) (v :: seen)
      obtain ⟨byte, tail, rfl, blank, closing, -⟩ := h.start
      simp only [List.append_assoc, List.cons_append, List.nil_append] at read ⊢
      rw [readItems, Scan.nextElement_spelled hg blank closing]
      simp only [read, leaving, further]
      simp

theorem readMembers_spelled (understands : Understands item meaning) {first : Bool}
    {terms : List (String × Term)} {bytes blanks : Bytes} {members : List (String × Value)}
    (h : Spells (.members first terms) bytes)
    (hv : (terms.mapM fun m => (meaning m.2).map (m.1, ·)) = some members) (hb : Blanks blanks)
    (rounds : Nat) (enough : terms.length < rounds) (seen : List (String × Value)) (after : Bytes) :
    readMembers item rounds first seen (bytes ++ (blanks ++ 0x7d :: after)) =
      .ok (seen.reverse ++ members, 0x7d :: after) := by
  induction terms generalizing first bytes members rounds seen with
  | nil =>
    cases h
    obtain ⟨rounds, rfl⟩ := Nat.exists_eq_succ_of_ne_zero (Nat.ne_zero_of_lt enough)
    obtain rfl : [] = members := by simpa using hv
    rw [List.nil_append, readMembers, Scan.nextKey_closing first hb, List.append_nil]
  | cons m terms ih =>
    cases h with
    | @member _ gap key before blanks' bytes bytes' name t _ hg hk hb' ha h others =>
      obtain ⟨v, meant, rest, means, rfl⟩ : ∃ v, meaning t = some v ∧
          ∃ rest, (terms.mapM fun m => (meaning m.2).map (m.1, ·)) = some rest ∧
            (name, v) :: rest = members := by
        simpa [List.mapM_cons, Option.bind_eq_some_iff] using hv
      obtain ⟨rounds, rfl⟩ := Nat.exists_eq_succ_of_ne_zero (Nat.ne_zero_of_lt enough)
      rw [List.length_cons] at enough
      have ends : Scan.EndsNumber (bytes' ++ (blanks ++ 0x7d :: after)) :=
        others.endsNumber_members (hb.endsNumber (Scan.endsNumber_cons (by decide)))
      have read := understands t bytes v blanks' h meant ha _ ends
      have further := ih others means rounds (by omega) ((name, v) :: seen)
      simp only [List.append_assoc, List.cons_append] at read ⊢
      rw [readMembers, Scan.nextKey_spelled hg]
      simp only [Scan.text_spelled hk, Scan.colon_spelled hb', read, leaving, further]
      simp

theorem length_le_of_spells_items {first : Bool} {items : List Term} {bytes : Bytes}
    (h : Spells (.items first items) bytes) : items.length ≤ bytes.length := by
  induction items generalizing first bytes with
  | nil => simp
  | cons t items ih =>
    cases h with
    | item hg h others =>
      have shorter := ih others
      obtain ⟨byte, rest, rfl, -⟩ := h.start
      simp only [List.length_cons, List.length_append]
      omega

theorem understands_of_settles {depth : Nat}
    (settles : ∀ t bytes v, Spells (.value t) bytes → t.value? depth = some v →
      Settles (readValue depth) bytes (.ok v)) :
    Understands (readValue depth) (Term.value? depth) := by
  intro t bytes v blanks h meant hb after ends
  rw [List.append_assoc, readValue_blanks depth hb]
  exact settles t bytes v h meant after ends

theorem settles_readValue (depth : Nat) (t : Term) (bytes : Bytes) (v : Value)
    (h : Spells (.value t) bytes) (meant : t.value? depth = some v) :
    Settles (readValue depth) bytes (.ok v) := by
  induction depth generalizing t bytes v with
  | zero =>
    refine settles_scalar h ?_ ?_ meant
    · rintro items rfl
      cases meant
    · rintro members rfl
      cases meant
  | succ depth ih =>
    have understands := understands_of_settles ih
    cases t with
    | list items =>
      obtain ⟨values, means, rfl⟩ :=
        Option.map_eq_some_iff.1 (by simpa only [Term.value?] using meant)
      cases h with
      | @list _ bytes blanks h hb =>
        intro after _
        have short := length_le_of_spells_items h
        have read := readItems_spelled understands h means hb
          ((bytes ++ (blanks ++ 0x5d :: after)).length + 1) (by simp; omega) [] after
        simp only [List.append_assoc, List.cons_append, List.nil_append] at read ⊢
        rw [readValue_list, read]
        simp only [finish, listEnd_cons]
        rfl
    | record terms =>
      obtain ⟨members, means, rfl⟩ :=
        Option.map_eq_some_iff.1 (by simpa only [Term.value?] using meant)
      cases h with
      | @record _ bytes blanks h hb =>
        intro after _
        have short := Field.length_le_of_spells h
        have read := readMembers_spelled understands h means hb
          ((bytes ++ (blanks ++ 0x7d :: after)).length + 1) (by simp; omega) [] after
        simp only [List.append_assoc, List.cons_append, List.nil_append] at read ⊢
        rw [readValue_record, read]
        simp only [finish, Scan.recordEnd_cons]
        rfl
    | _ => exact settles_scalar h (by simp) (by simp) meant

end Value

theorem SpellsRecord.read? {members : List (String × Value)} {text : Bytes}
    (h : SpellsRecord members text) : Value.read? text = some (.record members) := by
  obtain ⟨terms, lead, bytes, trail, hl, spells, ht, rfl, meant⟩ := h
  have ends : Scan.EndsNumber trail := by
    simpa using ht.endsNumber endsNumber_nil
  have read := Value.settles_readValue _ _ _ _ spells meant trail ends
  have blank : Scan.skipBlank trail = [] := List.dropWhile_eq_nil_iff.2 ht
  rw [Value.read?, readWhole, Value.readFirst, Value.readValue_blanks _ hl, read]
  simp only [leaving, blank]
  rfl

end AccountVault.Json
