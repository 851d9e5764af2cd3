import Mathlib
import AccountVault.Proofs.Json.Records

/-!
# Written values are read back

A value whose numbers are integers of sixty-four bits and whose lists and records are not nested too
deep is read back from its text as it was, members in their order. The induction is on how the value
fits a depth, since the reader spends one of its depth on every list and record it enters.
-/

namespace AccountVault.Json

namespace Value

inductive Fits : (depth : Nat) → Value → Prop
  | null {depth : Nat} : Fits depth .null
  | boolean {depth : Nat} (b : Bool) : Fits depth (.boolean b)
  | number {depth : Nat} {n : Number} (inRange : n.InRange) : Fits depth (.number n)
  | text {depth : Nat} (s : String) : Fits depth (.text s)
  | list {depth : Nat} {items : List Value} (each : ∀ v ∈ items, Fits depth v) :
    Fits (depth + 1) (.list items)
  | record {depth : Nat} {members : List (String × Value)} (each : ∀ m ∈ members, Fits depth m.2) :
    Fits (depth + 1) (.record members)

def ReadBy (item : Bytes → Read Value) (v : Value) : Prop :=
  ∀ after, Scan.EndsNumber after → item (v.write ++ after) = .ok (v, after)

theorem readValue_scalar {input rest : Bytes} {byte : UInt8}
    (start : Scan.skipBlank input = byte :: rest) (list : byte ≠ 0x5b) (record : byte ≠ 0x7b)
    (depth : Nat) : readValue depth input = readScalar byte rest := by
  rw [readValue.eq_def]
  dsimp only
  rw [start]
  simp only [if_neg list, if_neg record]

theorem readValue_of_number {input after : Bytes} {n : Number}
    (h : Field.number input = .ok (n, after)) (depth : Nat) :
    readValue depth input = .ok (.number n, after) := by
  unfold Field.number Field.leading at h
  split at h
  · cases h
  · rename_i byte rest start
    dsimp only at h
    split_ifs at h with list record
    rw [readValue_scalar start list record]
    split at h
    · cases h
    · rename_i read
      obtain ⟨rfl, rfl⟩ := Prod.mk.inj (Except.ok.inj h)
      exact read
    · cases h

theorem readBy_null (depth : Nat) : ReadBy (readValue depth) .null := by
  intro after _
  rw [write, List.cons_append,
    readValue_scalar (skipBlank_cons (by decide)) (by decide) (by decide)]
  rfl

theorem readBy_boolean (depth : Nat) (b : Bool) : ReadBy (readValue depth) (.boolean b) := by
  intro after _
  cases b with
  | true =>
    rw [write, List.cons_append,
      readValue_scalar (skipBlank_cons (by decide)) (by decide) (by decide)]
    rfl
  | false =>
    rw [write, List.cons_append,
      readValue_scalar (skipBlank_cons (by decide)) (by decide) (by decide)]
    rfl

theorem readBy_text (depth : Nat) (s : String) : ReadBy (readValue depth) (.text s) := by
  intro after _
  have read : readText (s.toList.flatMap escapeChar ++ 0x22 :: after) = .ok (.text s, after) := by
    rw [readText, Scan.text_written]
  rw [write, writeText_append,
    readValue_scalar (skipBlank_cons (by decide)) (by decide) (by decide)]
  exact read

def furtherItems : List Value → Bytes → Bytes
  | [], rest => 0x5d :: rest
  | v :: items, rest => 0x2c :: (v.write ++ furtherItems items rest)

theorem writeItems_append (v : Value) (items : List Value) (rest : Bytes) :
    writeItems (v :: items) ++ 0x5d :: rest = v.write ++ furtherItems items rest := by
  induction items generalizing v with
  | nil => simp [writeItems, furtherItems]
  | cons next items ih => simp [writeItems, furtherItems, ih]

theorem endsNumber_furtherItems (items : List Value) (rest : Bytes) :
    Scan.EndsNumber (furtherItems items rest) := by
  cases items with
  | nil => exact Scan.endsNumber_cons (by decide)
  | cons v items => exact Scan.endsNumber_cons (by decide)

theorem length_lt_length_furtherItems (items : List Value) (rest : Bytes) :
    items.length < (furtherItems items rest).length := by
  induction items with
  | nil => simp [furtherItems]
  | cons v items ih =>
    simp only [furtherItems, List.length_cons, List.length_append]
    omega

theorem Fits.head_write {depth : Nat} {v : Value} (h : Fits depth v) :
    ∃ byte bytes, v.write = byte :: bytes ∧ Scan.isBlank byte = false ∧ byte ≠ 0x5d := by
  cases h with
  | null => exact ⟨_, _, rfl, by decide⟩
  | boolean b => cases b <;> exact ⟨_, _, rfl, by decide⟩
  | text s => exact ⟨_, _, rfl, by decide⟩
  | list each => exact ⟨_, _, rfl, by decide⟩
  | record each => exact ⟨_, _, rfl, by decide⟩
  | number inRange =>
    rename_i n
    have read : Field.number (writeNumber n ++ []) = .ok (n, []) :=
      Field.number_writeNumber inRange nofun
    rcases written : writeNumber n with _ | ⟨byte, bytes⟩
    · rw [written] at read
      cases read
    · have number : IsNumberByte byte :=
        isNumberByte_of_mem_writeNumber (n := n) (by simp [written])
      refine ⟨byte, bytes, written, number.not_separator.1, ?_⟩
      rintro rfl
      exact absurd number (by decide)

theorem nextElement_write {depth : Nat} {v : Value} (h : Fits depth v) (rest : Bytes) :
    Scan.nextElement true (v.write ++ rest) = .ok (true, v.write ++ rest) ∧
      Scan.nextElement false (0x2c :: (v.write ++ rest)) = .ok (true, v.write ++ rest) := by
  obtain ⟨byte, bytes, written, blank, inside⟩ := h.head_write
  rw [written, List.cons_append]
  constructor
  · rw [Scan.nextElement, skipBlank_cons blank]
    simp [inside]
  · rw [Scan.nextElement, skipBlank_cons (by decide)]
    simp [skipBlank_cons blank, inside]

theorem nextElement_end (first : Bool) (rest : Bytes) :
    Scan.nextElement first (0x5d :: rest) = .ok (false, 0x5d :: rest) := by
  rw [Scan.nextElement, skipBlank_cons (by decide)]
  rfl

theorem listEnd_cons (rest : Bytes) : Scan.listEnd (0x5d :: rest) = (none, rest) := by
  rw [Scan.listEnd, skipBlank_cons (by decide)]
  rfl

theorem readValue_list (depth : Nat) (rest : Bytes) :
    readValue (depth + 1) (0x5b :: rest) =
      match readItems (readValue depth) (rest.length + 1) true [] rest with
      | .error fault => .error fault
      | .ok (items, rest) => finish Scan.listEnd (.list items) rest := by
  rw [readValue, skipBlank_cons (by decide)]
  rfl

variable {item : Bytes → Read Value} {depth : Nat}

theorem readItems_further {items : List Value} (fits : ∀ v ∈ items, Fits depth v)
    (each : ∀ v ∈ items, ReadBy item v) (rounds : Nat) (enough : items.length < rounds)
    (seen : List Value) (rest : Bytes) :
    readItems item rounds false seen (furtherItems items rest) =
      .ok (seen.reverse ++ items, 0x5d :: rest) := by
  induction items generalizing rounds seen with
  | nil =>
    obtain ⟨rounds, rfl⟩ := Nat.exists_eq_succ_of_ne_zero (Nat.ne_zero_of_lt enough)
    rw [furtherItems, readItems, nextElement_end, List.append_nil]
  | cons v items ih =>
    obtain ⟨rounds, rfl⟩ := Nat.exists_eq_succ_of_ne_zero (Nat.ne_zero_of_lt enough)
    rw [List.length_cons] at enough
    have others := ih (fun w hw => fits w (List.mem_cons_of_mem _ hw))
      (fun w hw => each w (List.mem_cons_of_mem _ hw)) rounds (by omega) (v :: seen)
    rw [furtherItems, readItems, (nextElement_write (fits v (by simp)) _).2]
    simp only [each v (by simp) _ (endsNumber_furtherItems items rest), others]
    simp

theorem readItems_write {items : List Value} (fits : ∀ v ∈ items, Fits depth v)
    (each : ∀ v ∈ items, ReadBy item v) {input : Bytes} (rest : Bytes)
    (h : input = writeItems items ++ 0x5d :: rest) :
    readItems item (input.length + 1) true [] input = .ok (items, 0x5d :: rest) := by
  subst h
  cases items with
  | nil =>
    rw [writeItems, List.nil_append, readItems, nextElement_end]
    rfl
  | cons v items =>
    have long := length_lt_length_furtherItems items rest
    have others := readItems_further (fun w hw => fits w (List.mem_cons_of_mem _ hw))
      (fun w hw => each w (List.mem_cons_of_mem _ hw)) (v.write ++ furtherItems items rest).length
      (by rw [List.length_append]; omega) [v] rest
    rw [writeItems_append, readItems, (nextElement_write (fits v (by simp)) _).1]
    simp only [each v (by simp) _ (endsNumber_furtherItems items rest), others]
    simp

theorem readValue_record (depth : Nat) (rest : Bytes) :
    readValue (depth + 1) (0x7b :: rest) =
      match readMembers (readValue depth) (rest.length + 1) true [] rest with
      | .error fault => .error fault
      | .ok (members, rest) => finish Scan.recordEnd (.record members) rest := by
  rw [readValue, skipBlank_cons (by decide)]
  rfl

theorem readMembers_further {members : List (String × Value)}
    (each : ∀ m ∈ members, ReadBy item m.2) (rounds : Nat) (enough : members.length < rounds)
    (seen : List (String × Value)) (rest : Bytes) :
    readMembers item rounds false seen (further members rest) =
      .ok (seen.reverse ++ members, 0x7d :: rest) := by
  induction members generalizing rounds seen with
  | nil =>
    obtain ⟨rounds, rfl⟩ := Nat.exists_eq_succ_of_ne_zero (Nat.ne_zero_of_lt enough)
    rw [further, readMembers, Scan.nextKey_end, List.append_nil]
  | cons m members ih =>
    obtain ⟨rounds, rfl⟩ := Nat.exists_eq_succ_of_ne_zero (Nat.ne_zero_of_lt enough)
    rw [List.length_cons] at enough
    have others := ih (fun w hw => each w (List.mem_cons_of_mem _ hw)) rounds (by omega)
      (m :: seen)
    rw [further, readMembers, Scan.nextKey_next]
    simp only [Scan.text_written, Scan.colon_cons,
      each m (by simp) _ (endsNumber_further members rest), others]
    simp

theorem readMembers_write {members : List (String × Value)}
    (each : ∀ m ∈ members, ReadBy item m.2) {input : Bytes} (rest : Bytes)
    (h : input = writeMembers members ++ 0x7d :: rest) :
    readMembers item (input.length + 1) true [] input = .ok (members, 0x7d :: rest) := by
  subst h
  cases members with
  | nil =>
    rw [writeMembers, List.nil_append, readMembers, Scan.nextKey_end]
    rfl
  | cons m members =>
    have long := length_lt_length_further members rest
    have others := readMembers_further (fun w hw => each w (List.mem_cons_of_mem _ hw))
      (writeText m.1 ++ 0x3a :: (m.2.write ++ further members rest)).length
      (by simp only [List.length_append, List.length_cons]; omega) [m] rest
    rw [writeMembers_append, readMembers, Scan.nextKey_first]
    simp only [Scan.text_written, Scan.colon_cons,
      each m (by simp) _ (endsNumber_further members rest), others]
    simp

theorem Fits.readBy {v : Value} (h : Fits depth v) : ReadBy (readValue depth) v := by
  induction h with
  | null => exact readBy_null _
  | boolean b => exact readBy_boolean _ b
  | text s => exact readBy_text _ s
  | number inRange =>
    intro after ends
    exact readValue_of_number (Field.number_writeNumber inRange ends) _
  | list fits each =>
    intro after _
    rw [write, List.cons_append, List.append_assoc, List.singleton_append, readValue_list,
      readItems_write fits each after rfl]
    simp only [finish, listEnd_cons]
  | record fits each =>
    intro after _
    rw [write, List.cons_append, List.append_assoc, List.singleton_append, readValue_record,
      readMembers_write each after rfl]
    simp only [finish, Scan.recordEnd_cons]

theorem read?_write {v : Value} (h : Fits deepest v) : Value.read? v.write = some v := by
  have read : readFirst (v.write ++ []) = .ok (v, []) := h.readBy [] nofun
  rw [Value.read?, readWhole_of_read read]
  rfl

end Value

end AccountVault.Json
