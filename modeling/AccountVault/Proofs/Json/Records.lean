import Mathlib
import AccountVault.Json.Field
import AccountVault.Json.Writer
import AccountVault.Proofs.Json.Numbers

/-!
# Written records are read back

A reader of records is a step function that takes one member at a time. If it takes each member of a
written record in turn, whatever stands behind, then the record as a whole is read and what stands
behind it is left. Which state the members lead to is said by `Field.Takes`, one member at a time.
-/

namespace AccountVault.Json

@[simp] theorem ok_bind {ε α β : Type} (a : α) (f : α → Except ε β) :
    (Except.ok a >>= f) = f a := rfl

theorem exists_of_bind_eq_ok {ε α β : Type} {x : Except ε α} {f : α → Except ε β} {b : β}
    (h : (x >>= f) = .ok b) : ∃ a, x = .ok a ∧ f a = .ok b := by
  cases x with
  | error e => cases h
  | ok a => exact ⟨a, rfl, h⟩

theorem read_of_readWhole {α : Type} {reader : Bytes → Read α} {text : Bytes} {a : α}
    (h : readWhole reader text = .ok a) : ∃ rest, reader text = .ok (a, rest) := by
  unfold readWhole at h
  split at h
  · cases h
  · rename_i b rest read
    split at h
    · cases h
      exact ⟨rest, read⟩
    · cases h

namespace Scan

theorem nextKey_first (name : String) (rest : Bytes) :
    nextKey true (writeText name ++ rest) =
      .ok (true, name.toList.flatMap escapeChar ++ 0x22 :: rest) := by
  rw [writeText_append, nextKey, skipBlank_cons (by decide)]
  rfl

theorem nextKey_next (name : String) (rest : Bytes) :
    nextKey false (0x2c :: (writeText name ++ rest)) =
      .ok (true, name.toList.flatMap escapeChar ++ 0x22 :: rest) := by
  rw [writeText_append, nextKey, skipBlank_cons (by decide)]
  simp [skipBlank_cons (show isBlank 0x22 = false by decide)]

theorem nextKey_end (first : Bool) (rest : Bytes) :
    nextKey first (0x7d :: rest) = .ok (false, 0x7d :: rest) := by
  rw [nextKey, skipBlank_cons (by decide)]
  rfl

theorem colon_cons (rest : Bytes) : colon (0x3a :: rest) = .ok rest := by
  rw [colon, skipBlank_cons (by decide)]
  rfl

theorem recordEnd_cons (rest : Bytes) : recordEnd (0x7d :: rest) = (none, rest) := by
  rw [recordEnd, skipBlank_cons (by decide)]
  rfl

end Scan

namespace Value

def further : List (String × Value) → Bytes → Bytes
  | [], rest => 0x7d :: rest
  | m :: members, rest => 0x2c :: (writeText m.1 ++ 0x3a :: (m.2.write ++ further members rest))

theorem writeMembers_append (m : String × Value) (members : List (String × Value)) (rest : Bytes) :
    writeMembers (m :: members) ++ 0x7d :: rest =
      writeText m.1 ++ 0x3a :: (m.2.write ++ further members rest) := by
  induction members generalizing m with
  | nil => simp [writeMembers, further]
  | cons next members ih => simp [writeMembers, further, ih]

theorem length_lt_length_further (members : List (String × Value)) (rest : Bytes) :
    members.length < (further members rest).length := by
  induction members with
  | nil => simp [further]
  | cons m members ih =>
    simp only [further, List.length_cons, List.length_append]
    omega

theorem endsNumber_further (members : List (String × Value)) (rest : Bytes) :
    Scan.EndsNumber (further members rest) := by
  cases members with
  | nil => exact Scan.endsNumber_cons (by decide)
  | cons m members => exact Scan.endsNumber_cons (by decide)

end Value

namespace Field

variable {σ α : Type} {field : σ → String → Bytes → Except Stop (σ × Bytes)}

theorem members_first (rounds : Nat) (state : σ) (name : String) (rest : Bytes) :
    members field (rounds + 1) true state (writeText name ++ rest) =
      field state name rest >>= fun x => members field rounds false x.1 x.2 := by
  rw [members, Scan.nextKey_first]
  simp only [Scan.text_written]
  rcases field state name rest with stop | ⟨state, rest⟩ <;> rfl

theorem members_next (rounds : Nat) (state : σ) (name : String) (rest : Bytes) :
    members field (rounds + 1) false state (0x2c :: (writeText name ++ rest)) =
      field state name rest >>= fun x => members field rounds false x.1 x.2 := by
  rw [members, Scan.nextKey_next]
  simp only [Scan.text_written]
  rcases field state name rest with stop | ⟨state, rest⟩ <;> rfl

theorem members_end (rounds : Nat) (first : Bool) (state : σ) (rest : Bytes) :
    members field (rounds + 1) first state (0x7d :: rest) = .ok (state, 0x7d :: rest) := by
  rw [members, Scan.nextKey_end]

theorem value_cons (reader : Bytes → Read α) (rest : Bytes) :
    value reader (0x3a :: rest) = lift (reader rest) := by
  rw [value, Scan.colon_cons]

theorem exists_of_enclosed {ending : Bytes → Option Fault × Bytes}
    {read : Except Stop (α × Bytes)} {a : α} {rest : Bytes}
    (h : enclosed ending read = .ok (a, rest)) : ∃ input, read = .ok (a, input) := by
  unfold enclosed at h
  split at h
  · cases h
  · cases h
  · split at h
    · cases h
      exact ⟨_, rfl⟩
    · cases h

theorem once_absent (name : String) (reader : Bytes → Read α) (input : Bytes) :
    once name false reader input = value reader input := rfl

/-- The members lead a reader from the first state to the last. -/
inductive Takes (field : σ → String → Bytes → Except Stop (σ × Bytes)) :
    σ → List (String × Value) → σ → Prop
  | nil {s : σ} : Takes field s [] s
  | cons {s t u : σ} {name : String} {v : Value} {members : List (String × Value)}
      (taken : ∀ after, Scan.EndsNumber after →
        field s name (0x3a :: (v.write ++ after)) = .ok (t, after))
      (others : Takes field t members u) : Takes field s ((name, v) :: members) u

theorem Takes.append {s t u : σ} {written others : List (String × Value)}
    (h : Takes field s written t) (h' : Takes field t others u) :
    Takes field s (written ++ others) u := by
  induction h with
  | nil => exact h'
  | cons taken _ ih => exact .cons taken (ih h')

theorem Takes.members_further {s t : σ} {written : List (String × Value)}
    (h : Takes field s written t) {rounds : Nat} (enough : written.length < rounds) (rest : Bytes) :
    members field rounds false s (Value.further written rest) = .ok (t, 0x7d :: rest) := by
  induction h generalizing rounds with
  | nil =>
    obtain ⟨rounds, rfl⟩ := Nat.exists_eq_succ_of_ne_zero (Nat.ne_zero_of_lt enough)
    exact members_end rounds false _ rest
  | cons taken others ih =>
    obtain ⟨rounds, rfl⟩ := Nat.exists_eq_succ_of_ne_zero (Nat.ne_zero_of_lt enough)
    rw [List.length_cons] at enough
    rw [Value.further, members_next, taken _ (Value.endsNumber_further _ _), ok_bind]
    exact ih (by omega)

theorem Takes.allMembers {s t : σ} {written : List (String × Value)} (h : Takes field s written t)
    (rest : Bytes) :
    allMembers field s (Value.writeMembers written ++ 0x7d :: rest) = .ok (t, 0x7d :: rest) := by
  cases h with
  | nil => exact members_end _ true s rest
  | cons taken others =>
    rename_i middle name v written
    have long := Value.length_lt_length_further written rest
    rw [Value.writeMembers_append, Field.allMembers, members_first,
      taken _ (Value.endsNumber_further _ _), ok_bind]
    refine others.members_further ?_ rest
    simp only [List.length_append, List.length_cons]
    omega

theorem structured_write {type : String} {asList asRecord : Bytes → Except Stop (α × Bytes)}
    {written : List (String × Value)} {a : α} {rest : Bytes}
    (h : asRecord (Value.writeMembers written ++ 0x7d :: rest) = .ok (a, 0x7d :: rest)) :
    structured type asList asRecord ((Value.record written).write ++ rest) = .ok (a, rest) := by
  rw [Value.write, List.cons_append, List.append_assoc, List.singleton_append, structured, leading,
    skipBlank_cons (by decide)]
  simp [h, enclosed, Scan.recordEnd_cons]

end Field

theorem readWhole_of_read {α : Type} {reader : Bytes → Read α} {text : Bytes} {a : α}
    (h : reader (text ++ []) = .ok (a, [])) : readWhole reader text = .ok a := by
  rw [List.append_nil] at h
  rw [readWhole, h]
  rfl

end AccountVault.Json
