import Mathlib
import AccountVault.Proofs.Json.Reals
import AccountVault.Proofs.Json.Records

/-!
# What is read can be written and read again

The reader of numbers gives integers of sixty-four bits and finite real numbers, and nothing else:
digits that do not fit are dropped before anything is computed, and a number that is too large is
refused. So the numbers in a value, wherever they stand, are readable; and what a reader of records
makes of the members one by one holds of the record.
-/

namespace AccountVault.Json

namespace Scan

def Yields (read : Read Number) : Prop := ∀ n rest, read = .ok (n, rest) → n.Readable

theorem yields_error {fault : Fault} : Yields (.error fault) := by
  intro n rest h
  cases h

theorem yields_ok {n : Number} {rest : Bytes} (h : n.Readable) : Yields (.ok (n, rest)) := by
  intro _ _ same
  cases same
  exact h

theorem yields_real (negative : Bool) {digits : Nat} (fits : digits < Number.unsignedBound)
    (e : Int) (rest : Bytes) : Yields (real negative digits e rest) := by
  unfold real
  split
  · rename_i magnitude read
    exact yields_ok (Binary64.ofDecimal?_lt fits read)
  · exact yields_error

theorem yields_exponent (negative : Bool) {digits : Nat} (fits : digits < Number.unsignedBound)
    (e : Int) (input : Bytes) : Yields (exponent negative digits e input) := by
  have zero : Number.Readable (.real ⟨negative, 0⟩) := show 0 < Binary64.infinity by decide
  unfold exponent
  split
  split
  · exact yields_error
  · split
    · split
      · split_ifs
        · exact yields_error
        · exact yields_ok zero
      · exact yields_real _ fits _ _
    · exact yields_error

theorem yields_tail (negative : Bool) {digits : Nat} (fits : digits < Number.unsignedBound)
    (e : Int) (input : Bytes) : Yields (tail negative digits e input) := by
  unfold tail
  split
  · split_ifs
    · exact yields_exponent _ fits _ _
    · exact yields_real _ fits _ _
  · exact yields_real _ fits _ _

theorem accumulate_lt {value : Nat} (fits : value < Number.unsignedBound) (taken : Nat)
    (digits : Bytes) : (accumulate value taken digits).1 < Number.unsignedBound := by
  induction digits generalizing value taken with
  | nil => exact fits
  | cons digit digits ih =>
    rw [accumulate]
    split_ifs with next
    · exact ih next (taken + 1)
    · exact fits

theorem yields_fraction (negative : Bool) {digits : Nat} (fits : digits < Number.unsignedBound)
    (e : Int) (input : Bytes) : Yields (fraction negative digits e input) := by
  simp only [fraction]
  split_ifs
  · split <;> exact yields_error
  · exact yields_tail _ (accumulate_lt fits _ _) _ _

theorem readable_whole (negative : Bool) {value : Nat} (fits : value < Number.unsignedBound) :
    (whole negative value).Readable := by
  have some : Number.signedBound < Number.unsignedBound := by decide
  unfold whole
  split_ifs with minus large
  · exact Binary64.nearest_lt fits
  · exact ⟨by omega, by omega⟩
  · exact ⟨by omega, by omega⟩

theorem yields_afterDigits (negative : Bool) {value : Nat} (fits : value < Number.unsignedBound)
    (dropped input : Bytes) : Yields (afterDigits negative value dropped input) := by
  unfold afterDigits
  split
  · split_ifs
    · exact yields_fraction _ fits _ _
    · exact yields_exponent _ fits _ _
    · exact yields_ok (readable_whole negative fits)
    · exact yields_real _ fits _ _
  · split_ifs
    · exact yields_ok (readable_whole negative fits)
    · exact yields_real _ fits _ _

theorem yields_number (negative : Bool) (input : Bytes) : Yields (number negative input) := by
  have zero : 0 < Number.unsignedBound := by decide
  cases input with
  | nil => exact yields_error
  | cons first rest =>
    simp only [number]
    split_ifs
    · split
      · split_ifs
        · exact yields_error
        · exact yields_afterDigits _ zero _ _
      · exact yields_afterDigits _ zero _ _
    · exact yields_afterDigits _ (accumulate_lt zero _ _) _ _
    · exact yields_error

end Scan

theorem Field.readable_of_number {input rest : Bytes} {n : Number}
    (h : Field.number input = .ok (n, rest)) : n.Readable := by
  obtain ⟨byte, after, -, ⟨-, signed⟩ | plain⟩ := exists_of_number h
  · exact Scan.yields_number _ _ _ _ signed
  · exact Scan.yields_number _ _ _ _ plain

namespace Value

theorem eq_of_finish {ending : Bytes → Option Fault × Bytes} {v w : Value} {input rest : Bytes}
    (h : finish ending v input = .ok (w, rest)) : w = v := by
  unfold finish at h
  split at h
  · cases h
    rfl
  · cases h

theorem readValue_cases {depth : Nat} {input rest : Bytes} {v : Value}
    (h : readValue depth input = .ok (v, rest)) :
    (∃ byte after, readScalar byte after = .ok (v, rest)) ∨ (∃ items, v = .list items) ∨
      ∃ depth rounds after end' members, v = .record members ∧
        readMembers (readValue depth) rounds true [] after = .ok (members, end') := by
  unfold readValue at h
  split at h
  · cases h
  · split_ifs at h
    · split at h
      · cases h
      · split at h
        · cases h
        · exact .inr (.inl ⟨_, eq_of_finish h⟩)
    · split at h
      · cases h
      · split at h
        · cases h
        · rename_i inside
          exact .inr (.inr ⟨_, _, _, _, _, eq_of_finish h, inside⟩)
    · exact .inl ⟨_, _, h⟩

theorem readable_of_readValue {depth : Nat} {input rest : Bytes} {n : Number}
    (h : readValue depth input = .ok (.number n, rest)) : n.Readable := by
  obtain ⟨byte, after, scalar⟩ | ⟨items, ⟨⟩⟩ | ⟨_, _, _, _, members, ⟨⟩, -⟩ := readValue_cases h
  rcases Field.readScalar_number scalar with ⟨-, signed⟩ | plain
  · exact Scan.yields_number _ _ _ _ signed
  · exact Scan.yields_number _ _ _ _ plain

theorem exists_of_readMembers {item : Bytes → Read Value} {rounds : Nat} {first : Bool}
    {seen members : List (String × Value)} {input rest : Bytes}
    (h : readMembers item rounds first seen input = .ok (members, rest)) {m : String × Value}
    (hm : m ∈ members) : m ∈ seen ∨ ∃ before after, item before = .ok (m.2, after) := by
  induction rounds generalizing first seen input with
  | zero => cases h
  | succ rounds ih =>
    unfold readMembers at h
    split at h
    · cases h
    · obtain ⟨rfl, rfl⟩ := Prod.mk.inj (Except.ok.inj h)
      exact .inl (List.mem_reverse.1 hm)
    · split at h
      · cases h
      · split at h
        · cases h
        · split at h
          · cases h
          · rename_i v after read
            rcases ih h with old | new
            · rcases List.mem_cons.1 old with rfl | old
              · exact .inr ⟨_, _, read⟩
              · exact .inl old
            · exact .inr new

theorem readable_of_member? {text : Bytes} {v : Value} (h : readFirst? text = some v)
    {name : String} {n : Number} (found : v.member? name = some (.number n)) : n.Readable := by
  have read : ∃ rest, readValue deepest text = .ok (v, rest) := by
    unfold readFirst? readFirst at h
    cases hr : readValue deepest text with
    | error fault =>
      rw [hr] at h
      cases h
    | ok result =>
      rw [hr] at h
      exact ⟨result.2, by rw [← Option.some.inj h]⟩
  obtain ⟨rest, read⟩ := read
  cases v with
  | record members =>
    obtain ⟨byte, after, scalar⟩ | ⟨items, ⟨⟩⟩ | ⟨_, _, _, _, _, ⟨⟩, inside⟩ := readValue_cases read
    · rcases readScalar_cases scalar with ⟨_, same, -⟩ | same | ⟨_, same⟩ | ⟨_, same⟩ <;> cases same
    · obtain ⟨m, hm, same⟩ := Option.map_eq_some_iff.1 found
      have mem : m ∈ members := List.mem_reverse.1 (List.mem_of_find?_eq_some hm)
      rcases exists_of_readMembers inside mem with none | ⟨before, after, item⟩
      · cases none
      · rw [same] at item
        exact readable_of_readValue item
  | _ => cases found

end Value

namespace Field

variable {σ α : Type} {field : σ → String → Bytes → Except Stop (σ × Bytes)}

theorem members_keep {p : σ → Prop}
    (keep : ∀ {s t : σ} {name : String} {input rest : Bytes}, p s →
      field s name input = .ok (t, rest) → p t)
    {rounds : Nat} {first : Bool} {s t : σ} {input rest : Bytes} (start : p s)
    (h : members field rounds first s input = .ok (t, rest)) : p t := by
  induction rounds generalizing first s input with
  | zero => cases h
  | succ rounds ih =>
    unfold members at h
    split at h
    · cases h
    · obtain ⟨rfl, rfl⟩ := Prod.mk.inj (Except.ok.inj h)
      exact start
    · split at h
      · cases h
      · split at h
        · cases h
        · rename_i read
          exact ih (keep start read) h

theorem eq_ok_of_lift {read : Read α} {a : α} {rest : Bytes} (h : lift read = .ok (a, rest)) :
    read = .ok (a, rest) := by
  cases read with
  | error fault => cases h
  | ok x => exact congrArg _ (Except.ok.inj h)

theorem exists_of_value {reader : Bytes → Read α} {input rest : Bytes} {a : α}
    (h : value reader input = .ok (a, rest)) : ∃ input, reader input = .ok (a, rest) := by
  unfold value at h
  split at h
  · cases h
  · exact ⟨_, eq_ok_of_lift h⟩

theorem exists_of_once {name : String} {present : Bool} {reader : Bytes → Read α}
    {input rest : Bytes} {a : α} (h : once name present reader input = .ok (a, rest)) :
    ∃ input, reader input = .ok (a, rest) := by
  unfold once at h
  split_ifs at h
  exact exists_of_value h

theorem exists_of_item {position : Nat} {type : String} {reader : Bytes → Read α}
    {input rest : Bytes} {a : α} (h : item position type reader input = .ok (a, rest)) :
    ∃ input, reader input = .ok (a, rest) := by
  unfold item at h
  split at h
  · cases h
  · cases h
  · exact ⟨_, eq_ok_of_lift h⟩

theorem exists_of_structured {type : String} {asList asRecord : Bytes → Except Stop (α × Bytes)}
    {input rest : Bytes} {a : α} (h : structured type asList asRecord input = .ok (a, rest)) :
    ∃ input rest, asList input = .ok (a, rest) ∨ asRecord input = .ok (a, rest) := by
  unfold structured leading at h
  split at h
  · cases h
  · dsimp only at h
    split_ifs at h
    · obtain ⟨after, read⟩ := exists_of_enclosed h
      exact ⟨_, after, .inl read⟩
    · obtain ⟨after, read⟩ := exists_of_enclosed h
      exact ⟨_, after, .inr read⟩

end Field

end AccountVault.Json
