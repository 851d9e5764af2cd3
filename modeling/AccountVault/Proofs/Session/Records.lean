import Mathlib
import AccountVault.Store.Scripted
import AccountVault.Proofs.Program.Contract

/-!
# The record of a run

The backend keeps a record of every call and every draw, also of a call that never returns. What a
contract says of a program's exchanges can therefore be read off the record of its run: every
recorded call and draw is one that the contract allows.
-/

namespace AccountVault

open Program

def Exchange.call? : Exchange → Option Call
  | head location _ => some (.head location)
  | get location _ => some (.get location)
  | put location _ ifMatch _ => some (.put location ifMatch)
  | draw _ _ => none

namespace Scripted

variable {allowed : List Exchange → Exchange → Prop} {state middle last : Scripted}

/-- Between the two states only calls and draws have been recorded that are allowed, and as many
prepared answers are gone as draws have been made. -/
structure Records (allowed : List Exchange → Exchange → Prop) (state last : Scripted) : Prop where
  calls : ∃ made, last.calls = state.calls ++ made ∧
    ∀ call ∈ made, ∃ past x, allowed past x ∧ x.call? = some call
  draws : ∃ drew, last.drawn = state.drawn ++ drew ∧
    last.prepared = state.prepared.drop drew.length ∧
    ∀ count ∈ drew, ∃ past answer, allowed past (.draw count answer)

theorem Records.refl (state : Scripted) : Records allowed state state :=
  ⟨⟨[], by simp⟩, ⟨[], by simp⟩⟩

theorem Records.trans (first : Records allowed state middle)
    (second : Records allowed middle last) :
    Records allowed state last := by
  obtain ⟨⟨made, calls, made'⟩, ⟨drew, drawn, prepared, drew'⟩⟩ := first
  obtain ⟨⟨more, further, more'⟩, ⟨extra, drawn', prepared', extra'⟩⟩ := second
  constructor
  · refine ⟨made ++ more, by rw [further, calls, List.append_assoc], ?_⟩
    intro call mem
    rcases List.mem_append.1 mem with mem | mem
    · exact made' call mem
    · exact more' call mem
  · refine ⟨drew ++ extra, by rw [drawn', drawn, List.append_assoc], ?_, ?_⟩
    · rw [prepared', prepared, List.drop_drop, List.length_append]
    · intro count mem
      rcases List.mem_append.1 mem with mem | mem
      · exact drew' count mem
      · exact extra' count mem

theorem state_head (faults : Faults) (location : Location) (state : Scripted) :
    ((backend faults).head location state).2 = state.record (.head location) := by
  simp only [backend, head]
  split <;> rfl

theorem state_get (faults : Faults) (location : Location) (state : Scripted) :
    ∃ store, ((backend faults).get location state).2 =
      { state.record (.get location) with store := store } := by
  simp only [backend, get]
  split
  · exact ⟨_, rfl⟩
  · exact ⟨_, rfl⟩
  · exact ⟨_, rfl⟩
  · split <;> exact ⟨_, rfl⟩
  · exact ⟨_, rfl⟩

theorem state_put (faults : Faults) (location : Location) (body : Bytes) (ifMatch : Option String)
    (state : Scripted) :
    ∃ store, ((backend faults).put location body ifMatch state).2 =
      { state.record (.put location ifMatch) with store := store } := by
  simp only [backend, put]
  split <;> exact ⟨_, rfl⟩

theorem state_draw (count : Nat) (state : Scripted) :
    (state.draw count).2 =
      { state with drawn := state.drawn ++ [count], prepared := state.prepared.tail } := by
  unfold draw
  cases state.prepared <;> rfl

theorem records_call {past : List Exchange} {x : Exchange} {call : Call} (h : allowed past x)
    (placed : x.call? = some call) (calls : last.calls = state.calls ++ [call])
    (drawn : last.drawn = state.drawn) (prepared : last.prepared = state.prepared) :
    Records allowed state last := by
  refine ⟨⟨[call], calls, ?_⟩, ⟨[], by simp [drawn], by simp [prepared], by simp⟩⟩
  intro other mem
  obtain rfl := List.mem_singleton.1 mem
  exact ⟨past, x, h, placed⟩

theorem records_head {past : List Exchange} {location : Location}
    (h : ∀ answer, allowed past (.head location answer)) (faults : Faults) (state : Scripted) :
    Records allowed state ((backend faults).head location state).2 := by
  rw [state_head]
  exact records_call (h (.ok ())) rfl rfl rfl rfl

theorem records_get {past : List Exchange} {location : Location}
    (h : ∀ answer, allowed past (.get location answer)) (faults : Faults) (state : Scripted) :
    Records allowed state ((backend faults).get location state).2 := by
  obtain ⟨store, noted⟩ := state_get faults location state
  rw [noted]
  exact records_call (h (.error .notFound)) rfl rfl rfl rfl

theorem records_put {past : List Exchange} {location : Location} {body : Bytes}
    {ifMatch : Option String} (h : ∀ answer, allowed past (.put location body ifMatch answer))
    (faults : Faults) (state : Scripted) :
    Records allowed state ((backend faults).put location body ifMatch state).2 := by
  obtain ⟨store, noted⟩ := state_put faults location body ifMatch state
  rw [noted]
  exact records_call (h (.ok none)) rfl rfl rfl rfl

theorem records_draw {past : List Exchange} {count : Nat}
    (h : ∀ answer, allowed past (.draw count answer)) (state : Scripted) :
    Records allowed state (state.draw count).2 := by
  rw [state_draw]
  refine ⟨⟨[], by simp⟩, ⟨[count], rfl, by simp, ?_⟩⟩
  intro other mem
  obtain rfl := List.mem_singleton.1 mem
  exact ⟨past, .error .empty, h _⟩

end Scripted

theorem Program.Meets.records {α : Type} {allowed : List Exchange → Exchange → Prop}
    {result : List Exchange → α → Prop} {p : Program α} {past : List Exchange}
    (h : p.Meets allowed result past) (faults : Faults) (state : Scripted) :
    Scripted.Records allowed state (p.run (Scripted.backend faults) state).state := by
  induction p generalizing past state with
  | done a => exact .refl state
  | head location next ih =>
    have first := Scripted.records_head (fun answer => (h answer).1) faults state
    simp only [run]
    rcases called : (Scripted.backend faults).head location state with ⟨_ | answer, middle⟩
    · rwa [called] at first
    · rw [called] at first
      exact first.trans (ih answer (h answer).2 middle)
  | get location next ih =>
    have first := Scripted.records_get (fun answer => (h answer).1) faults state
    simp only [run]
    rcases called : (Scripted.backend faults).get location state with ⟨_ | answer, middle⟩
    · rwa [called] at first
    · rw [called] at first
      exact first.trans (ih answer (h answer).2 middle)
  | put location body ifMatch next ih =>
    have first := Scripted.records_put (fun answer => (h answer).1) faults state
    simp only [run]
    rcases called : (Scripted.backend faults).put location body ifMatch state with
      ⟨_ | answer, middle⟩
    · rwa [called] at first
    · rw [called] at first
      exact first.trans (ih answer (h answer).2 middle)
  | draw count next ih =>
    have first := Scripted.records_draw (fun answer => (h answer).1) state
    exact first.trans (ih _ (h _).2 _)
  | log event next ih => exact ih h state

end AccountVault
