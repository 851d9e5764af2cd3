import Mathlib
import AccountVault.Proofs.Http.Agreement
import AccountVault.Proofs.Security.SecretFlow
import AccountVault.Proofs.Session.Records

/-!
# A step is the operation it asks for

Whether an operation is asked for directly or over HTTP, a step makes the exchanges of the
operation, leaves the state that the operation leaves and comes back with what it replies. A
contract of the operation can therefore be read off the step. A step that asks for no operation
makes no exchanges. The draws among the exchanges of a run are those that the backend has recorded,
and each is given the next answer that the source has to give.
-/

namespace AccountVault

open Program

namespace Program

variable {σ α β : Type} {backend : Backend σ}

theorem exchanges_bind_of_silent (p : Program α) {f : α → Program β} (silent : ∀ a, (f a).Silent)
    (state : σ) : (p.bind f).exchanges backend state = p.exchanges backend state := by
  induction p generalizing state with
  | done a => exact (silent a).exchanges_eq backend state
  | head location next ih =>
    simp only [bind, exchanges]
    split <;> simp [ih]
  | get location next ih =>
    simp only [bind, exchanges]
    split <;> simp [ih]
  | put location body ifMatch next ih =>
    simp only [bind, exchanges]
    split <;> simp [ih]
  | draw count next ih => simp only [bind, exchanges, ih]
  | log event next ih => exact ih state

variable {allowed allowed' : List Exchange → Exchange → Prop}
  {result result' : List Exchange → α → Prop}

theorem Meets.and {p : Program α} {past : List Exchange} (h : p.Meets allowed result past)
    (h' : p.Meets allowed' result' past) :
    p.Meets (fun past x => allowed past x ∧ allowed' past x)
      (fun past a => result past a ∧ result' past a) past := by
  induction p generalizing past with
  | done a => exact ⟨h, h'⟩
  | head location next ih =>
    exact fun answer => ⟨⟨(h answer).1, (h' answer).1⟩, ih answer (h answer).2 (h' answer).2⟩
  | get location next ih =>
    exact fun answer => ⟨⟨(h answer).1, (h' answer).1⟩, ih answer (h answer).2 (h' answer).2⟩
  | put location body ifMatch next ih =>
    exact fun answer => ⟨⟨(h answer).1, (h' answer).1⟩, ih answer (h answer).2 (h' answer).2⟩
  | draw count next ih =>
    exact fun answer => ⟨⟨(h answer).1, (h' answer).1⟩, ih answer (h answer).2 (h' answer).2⟩
  | log event next ih => exact ih h h'

theorem Meets.cutOff_cases {p : Program α} {past : List Exchange} (h : p.Meets allowed result past)
    {state : σ} (cut : (p.run backend state).value = none) :
    ∃ x, x.drawn? = none ∧ allowed (past ++ p.exchanges backend state) x := by
  induction p generalizing past state with
  | done a => cases cut
  | head location next ih =>
    simp only [run, exchanges] at cut ⊢
    generalize backend.head location state = called at cut ⊢
    obtain ⟨_ | answer, middle⟩ := called
    · exact ⟨_, rfl, by simpa using (h (.ok ())).1⟩
    · simpa using ih answer (h answer).2 cut
  | get location next ih =>
    simp only [run, exchanges] at cut ⊢
    generalize backend.get location state = called at cut ⊢
    obtain ⟨_ | answer, middle⟩ := called
    · exact ⟨_, rfl, by simpa using (h (.error .notFound)).1⟩
    · simpa using ih answer (h answer).2 cut
  | put location body ifMatch next ih =>
    simp only [run, exchanges] at cut ⊢
    generalize backend.put location body ifMatch state = called at cut ⊢
    obtain ⟨_ | answer, middle⟩ := called
    · exact ⟨_, rfl, by simpa using (h (.ok none)).1⟩
    · simpa using ih answer (h answer).2 cut
  | draw count next ih =>
    simp only [run, exchanges] at cut ⊢
    simpa using ih _ (h _).2 cut
  | log event next ih => exact ih h cut

end Program

namespace Session

variable {session : Session} {faults : Faults} {action : Action} {state : Scripted}
  {operation : Operation}

def Action.told : Action → Option Reply → Result
  | action, some reply => action.rendered reply
  | request r, none => .response (Http.Response.cutOff.coded r)
  | _, none => .cutOff

def outcome (session : Session) (faults : Faults) (operation : Operation) (state : Scripted) :
    Outcome Scripted Reply :=
  (operation.run session.site.service).run (Scripted.backend faults) { state with calls := [] }

theorem exchanges_of_asks? (asks : action.asks? session.site = some operation) :
    session.exchanges faults action state = (operation.run session.site.service).exchanges
      (Scripted.backend faults) { state with calls := [] } := by
  cases action with
  | operation o =>
    obtain rfl := Option.some.inj asks
    rfl
  | request r =>
    rw [exchanges, Http.Site.handle_of_operation? asks]
    exact exchanges_bind_of_silent _ Http.silent_conclude _
  | _ => cases asks

theorem step_of_asks? (asks : action.asks? session.site = some operation) :
    (session.step faults action state).state = (session.outcome faults operation state).state ∧
      (session.step faults action state).result =
        action.told (session.outcome faults operation state).value := by
  cases action with
  | operation o =>
    obtain rfl := Option.some.inj asks
    simp only [step, perform, outcome, true_and]
    cases ((o.run session.site.service).run _ _).value <;> rfl
  | request r =>
    have same : (operation.run session.site.service).run (Scripted.backend faults)
        { state with calls := [] } = session.outcome faults operation state := rfl
    simp only [step, exchange, Http.Site.handle_of_operation? asks, run_bind, same]
    cases ended : (session.outcome faults operation state).value with
    | none => simp [andThen, ended, Action.told, Http.Site.answer]
    | some reply =>
      obtain ⟨events, concluded⟩ := @Http.ends_conclude _ (Scripted.backend faults)
        (session.outcome faults operation state).state reply
      simp [andThen, ended, concluded, Action.told, Http.Site.answer, Action.rendered]
  | _ => cases asks

theorem exchanges_of_asks?_none (asks : action.asks? session.site = none) :
    session.exchanges faults action state = [] := by
  cases action with
  | operation o => cases asks
  | request r => exact (Http.Site.silent_handle asks).exchanges_eq _ _
  | _ => rfl

theorem result_of_meets {allowed : List Exchange → Exchange → Prop}
    {result : List Exchange → Reply → Prop} (asks : action.asks? session.site = some operation)
    (meets : (operation.run session.site.service).Meets allowed result []) (faults : Faults)
    (state : Scripted) :
    (∃ reply, (session.step faults action state).result = action.rendered reply ∧
        result (session.exchanges faults action state) reply) ∨
      (session.step faults action state).result = action.told none ∧
        ∃ x, x.drawn? = none ∧ allowed (session.exchanges faults action state) x := by
  obtain ⟨-, told⟩ := @step_of_asks? session faults action state operation asks
  rw [told, exchanges_of_asks? asks]
  rcases meets.value_cases (Scripted.backend faults) { state with calls := [] } with
    ⟨reply, ended, admitted⟩ | ⟨cut, -⟩
  · left
    exact ⟨reply, congrArg action.told ended, admitted⟩
  · right
    exact ⟨congrArg action.told cut, meets.cutOff_cases cut⟩

end Session

namespace Scripted

variable {state middle last : Scripted} {draws further : List (Nat × Except IvError Bytes)}

def given (state : Scripted) (k count : Nat) : Except IvError Bytes :=
  match state.prepared[k]? with
  | some item => item.answer count
  | none => .ok (counted (state.drawn.length + k) count)

theorem supply_eq_given (state : Scripted) (k : Nat) :
    state.supply k = state.given k Cipher.ivLength := rfl

/-- Between the two states these draws have been made, each with the next answer of the source. -/
structure Drew (draws : List (Nat × Except IvError Bytes)) (state last : Scripted) : Prop where
  drawn : last.drawn = state.drawn ++ draws.map Prod.fst
  prepared : last.prepared = state.prepared.drop draws.length
  answers : ∀ k count answer, draws[k]? = some (count, answer) → answer = state.given k count

theorem drew_nil (drawn : last.drawn = state.drawn) (prepared : last.prepared = state.prepared) :
    Drew [] state last :=
  ⟨by simp [drawn], by simp [prepared], by simp⟩

theorem Drew.given_eq (h : Drew draws state last) (k count : Nat) :
    last.given k count = state.given (draws.length + k) count := by
  have position : (state.drawn ++ draws.map Prod.fst).length + k =
      state.drawn.length + (draws.length + k) := by
    simp only [List.length_append, List.length_map]
    omega
  rw [given, given, h.prepared, h.drawn, List.getElem?_drop, position]

theorem Drew.trans (first : Drew draws state middle) (second : Drew further middle last) :
    Drew (draws ++ further) state last where
  drawn := by rw [second.drawn, first.drawn, List.map_append, List.append_assoc]
  prepared := by rw [second.prepared, first.prepared, List.drop_drop, List.length_append]
  answers k count answer found := by
    rcases Nat.lt_or_ge k draws.length with early | late
    · rw [List.getElem?_append_left early] at found
      exact first.answers k count answer found
    · rw [List.getElem?_append_right late] at found
      rw [second.answers _ count answer found, first.given_eq, Nat.add_sub_of_le late]

theorem drew_draw (count : Nat) (state : Scripted) :
    Drew [(count, (state.draw count).1)] state (state.draw count).2 := by
  rw [state_draw]
  refine ⟨rfl, by simp, ?_⟩
  intro k other answer found
  obtain rfl : k = 0 := by
    have short := (List.getElem?_eq_some_iff.1 found).1
    simpa using short
  obtain ⟨rfl, rfl⟩ : count = other ∧ (state.draw count).1 = answer := by simpa using found
  unfold draw given
  cases state.prepared <;> rfl

theorem drew_head (faults : Faults) (location : Location) (state : Scripted) :
    Drew [] state ((backend faults).head location state).2 := by
  rw [state_head]
  exact drew_nil rfl rfl

theorem drew_get (faults : Faults) (location : Location) (state : Scripted) :
    Drew [] state ((backend faults).get location state).2 := by
  obtain ⟨store, noted⟩ := state_get faults location state
  rw [noted]
  exact drew_nil rfl rfl

theorem drew_put (faults : Faults) (location : Location) (body : Bytes) (ifMatch : Option String)
    (state : Scripted) : Drew [] state ((backend faults).put location body ifMatch state).2 := by
  obtain ⟨store, noted⟩ := state_put faults location body ifMatch state
  rw [noted]
  exact drew_nil rfl rfl

end Scripted

theorem Program.drew_run {α : Type} (p : Program α) (faults : Faults) (state : Scripted) :
    Scripted.Drew ((p.exchanges (Scripted.backend faults) state).filterMap Exchange.drawn?) state
      (p.run (Scripted.backend faults) state).state := by
  induction p generalizing state with
  | done a => exact Scripted.drew_nil rfl rfl
  | head location next ih =>
    have first := Scripted.drew_head faults location state
    simp only [run, exchanges]
    rcases called : (Scripted.backend faults).head location state with ⟨_ | answer, middle⟩
    · rwa [called] at first
    · rw [called] at first
      exact first.trans (ih answer middle)
  | get location next ih =>
    have first := Scripted.drew_get faults location state
    simp only [run, exchanges]
    rcases called : (Scripted.backend faults).get location state with ⟨_ | answer, middle⟩
    · rwa [called] at first
    · rw [called] at first
      exact first.trans (ih answer middle)
  | put location body ifMatch next ih =>
    have first := Scripted.drew_put faults location body ifMatch state
    simp only [run, exchanges]
    rcases called : (Scripted.backend faults).put location body ifMatch state with
      ⟨_ | answer, middle⟩
    · rwa [called] at first
    · rw [called] at first
      exact first.trans (ih answer middle)
  | draw count next ih => exact (Scripted.drew_draw count state).trans (ih _ _)
  | log event next ih => exact ih state

namespace Session

theorem drew_step (session : Session) (faults : Faults) (action : Action) (state : Scripted) :
    Scripted.Drew ((session.exchanges faults action state).filterMap Exchange.drawn?) state
      (session.step faults action state).state := by
  have forgotten : Scripted.Drew [] state { state with calls := [] } := Scripted.drew_nil rfl rfl
  cases action with
  | operation operation => exact forgotten.trans (drew_run _ faults _)
  | request request => exact forgotten.trans (drew_run _ faults _)
  | _ => exact Scripted.drew_nil rfl rfl

theorem drew_after (session : Session) (steps : List (Faults × Action)) (state : Scripted) :
    Scripted.Drew ((session.history steps state).flatMap Occurrence.draws) state
      (session.after steps state) := by
  induction steps generalizing state with
  | nil => exact Scripted.drew_nil rfl rfl
  | cons step steps ih => exact (session.drew_step step.1 step.2 state).trans (ih _)

end Session

end AccountVault
