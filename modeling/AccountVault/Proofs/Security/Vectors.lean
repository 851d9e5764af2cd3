import Mathlib
import AccountVault.Proofs.Session.Issued

/-!
# Every vector is used once

The draws of a run are numbered as they are made, and the source gives each the next of its answers.
A step that comes to sealing makes one draw and any other step makes none, so the draw of a step is
known by the number of draws before it. Every sealed text that a step gives away begins with the
vector of that draw. Main statement: no draw serves two steps, so if the source does not repeat
itself, no two sealed texts of a run have the same vector, whatever else the run does and wherever
it fails.
-/

namespace AccountVault

open Program

namespace Session

def Occurrence.Encrypts (site : Http.Site) (x : Occurrence) : Prop :=
  ∃ operation, x.action.asks? site = some operation ∧ operation.Encrypts site.service x.exchanges

def drawsBefore (history : List Occurrence) (i : Nat) : Nat :=
  ((history.take i).flatMap Occurrence.draws).length

/-- The text is given away by the step at a place of the run. -/
def IssuedAt (session : Session) (steps : List (Faults × Action)) (state : Scripted) (i : Nat)
    (text : String) : Prop :=
  ∃ x report, (session.history steps state)[i]? = some x ∧
    (session.run steps state)[i]? = some report ∧ x.Issues session.site report.result text

variable {session : Session} {steps : List (Faults × Action)} {state : Scripted}
  {history : List Occurrence} {x : Occurrence} {i j : Nat} {text : String}

theorem step_of_getElem? (found : (session.history steps state)[i]? = some x) :
    ∃ faults action before, x = ⟨faults, action, session.exchanges faults action before⟩ ∧
      (session.run steps state)[i]? = some (session.step faults action before) := by
  induction steps generalizing state i with
  | nil => cases found
  | cons step steps ih =>
    cases i with
    | zero => exact ⟨step.1, step.2, state, (Option.some.inj found).symm, rfl⟩
    | succ i => exact ih found

theorem eq_take_append (found : history[i]? = some x) :
    history = history.take i ++ x :: history.drop (i + 1) := by
  obtain ⟨short, rfl⟩ := List.getElem?_eq_some_iff.1 found
  rw [List.getElem_cons_drop, List.take_append_drop]

theorem drawsBefore_lt (found : history[i]? = some x) (drew : x.draws ≠ []) (earlier : i < j) :
    drawsBefore history i < drawsBefore history j := by
  have within : (history.take j)[i]? = some x := by rw [List.getElem?_take_of_lt earlier, found]
  have split := eq_take_append within
  rw [List.take_take, Nat.min_eq_left earlier.le] at split
  have filled := List.length_pos_iff.2 drew
  rw [drawsBefore, drawsBefore, split, List.flatMap_append, List.flatMap_cons, List.length_append,
    List.length_append]
  omega

theorem getElem?_draws (found : history[i]? = some x) {drawn : Nat × Except IvError Bytes}
    (single : x.draws = [drawn]) :
    (history.flatMap Occurrence.draws)[drawsBefore history i]? = some drawn := by
  have split := congrArg (List.flatMap Occurrence.draws) (eq_take_append found)
  rw [List.flatMap_append, List.flatMap_cons, single] at split
  rw [split, drawsBefore, List.getElem?_append_right le_rfl, Nat.sub_self]
  rfl

theorem settled_step (session : Session) (faults : Faults) (action : Action) (state : Scripted) :
    let x : Occurrence := ⟨faults, action, session.exchanges faults action state⟩
    (x.Encrypts session.site → ∃ answer, x.draws = [(Cipher.ivLength, answer)]) ∧
      (¬x.Encrypts session.site → x.draws = []) := by
  intro x
  cases asks : action.asks? session.site with
  | none =>
    have quiet : x.exchanges = [] := exchanges_of_asks?_none asks
    have none : x.draws = [] := by
      rw [Occurrence.draws, quiet]
      rfl
    refine ⟨?_, fun _ => none⟩
    rintro ⟨operation, asks', -⟩
    rw [asks] at asks'
    cases asks'
  | some operation =>
    have same : x.Encrypts session.site ↔ operation.Encrypts session.site.service x.exchanges := by
      constructor
      · rintro ⟨operation', asks', encrypts⟩
        obtain rfl := Option.some.inj (asks.symm.trans asks')
        exact encrypts
      · exact fun encrypts => ⟨operation, asks, encrypts⟩
    rw [same]
    have settled := operation.settled_run session.site.service (Scripted.backend faults)
      { state with calls := [] }
    rw [← exchanges_of_asks? asks] at settled
    exact settled

theorem settled_history (mem : x ∈ session.history steps state) :
    (x.Encrypts session.site → ∃ answer, x.draws = [(Cipher.ivLength, answer)]) ∧
      (¬x.Encrypts session.site → x.draws = []) := by
  obtain ⟨i, found⟩ := List.mem_iff_getElem?.1 mem
  obtain ⟨faults, action, before, rfl, -⟩ := step_of_getElem? found
  exact session.settled_step faults action before

theorem count_of_mem_draws {count : Nat} {answer : Except IvError Bytes}
    (mem : (count, answer) ∈ (session.history steps state).flatMap Occurrence.draws) :
    count = Cipher.ivLength := by
  obtain ⟨x, listed, drawn⟩ := List.mem_flatMap.1 mem
  obtain ⟨once, never⟩ := settled_history listed
  by_cases encrypts : x.Encrypts session.site
  · obtain ⟨answer', single⟩ := once encrypts
    rw [single, List.mem_singleton] at drawn
    exact (Prod.mk.inj drawn).1
  · rw [never encrypts] at drawn
    cases drawn

theorem IssuedAt.sealsInto (issued : session.IssuedAt steps state i text) :
    ∃ x operation, (session.history steps state)[i]? = some x ∧
      x.action.asks? session.site = some operation ∧
      operation.SealsInto session.site.service x.exchanges text := by
  obtain ⟨x, report, found, ran, issues⟩ := issued
  obtain ⟨faults, action, before, rfl, ran'⟩ := step_of_getElem? found
  obtain rfl := Option.some.inj (ran.symm.trans ran')
  obtain ⟨operation, asks, seals⟩ := sealsInto_of_issues issues
  exact ⟨_, operation, found, asks, seals⟩

theorem IssuedAt.vector (issued : session.IssuedAt steps state i text) :
    ∃ x iv, (session.history steps state)[i]? = some x ∧
      x.draws = [(Cipher.ivLength, .ok iv)] ∧ Sealed.vector? text = some iv := by
  obtain ⟨x, operation, found, -, seals⟩ := issued.sealsInto
  obtain ⟨iv, drawn, vector⟩ := seals.vector?
  exact ⟨x, iv, found, drawn, vector⟩

theorem IssuedAt.unique {text' : String} (issued : session.IssuedAt steps state i text)
    (issued' : session.IssuedAt steps state i text') : text = text' := by
  obtain ⟨x, operation, found, asks, seals⟩ := issued.sealsInto
  obtain ⟨x', operation', found', asks', seals'⟩ := issued'.sealsInto
  obtain rfl := Option.some.inj (found.symm.trans found')
  obtain rfl := Option.some.inj (asks.symm.trans asks')
  exact seals.unique seals'

theorem issuedAt_of_succeeded {report : Report} {id : String} {input : AccountInput}
    (found : (session.history steps state)[i]? = some x)
    (ran : (session.run steps state)[i]? = some report) (asks : x.Asks session.site id input)
    (succeeded : ¬report.result.Failed) : ∃ text, session.IssuedAt steps state i text := by
  obtain ⟨faults, action, before, rfl, ran'⟩ := step_of_getElem? found
  obtain rfl := Option.some.inj (ran.symm.trans ran')
  obtain ⟨operation, asked, brings⟩ := asks.brings
  obtain ⟨text, -, ⟨answer, number, read, held⟩, -⟩ := issued_of_succeeded asked brings succeeded
  refine ⟨text, _, _, found, ran, ?_⟩
  apply Occurrence.Issues.returned asks read held
  · rw [Document.get?_single, if_pos rfl]
  · rfl

/-- The source does not give the same bytes twice. -/
def Unrepeated (draws : List (Nat × Except IvError Bytes)) : Prop :=
  draws.Pairwise fun first second => ∀ iv, first.2 = .ok iv → second.2 ≠ .ok iv

theorem IssuedAt.place_eq {text' : String}
    (unrepeated : Unrepeated ((session.history steps state).flatMap Occurrence.draws))
    (issued : session.IssuedAt steps state i text) (issued' : session.IssuedAt steps state j text')
    (same : Sealed.vector? text = Sealed.vector? text') : i = j := by
  obtain ⟨x, iv, found, single, vector⟩ := issued.vector
  obtain ⟨y, iv', found', single', vector'⟩ := issued'.vector
  obtain rfl : iv = iv' := Option.some.inj (vector.symm.trans (same.trans vector'))
  obtain ⟨short, drawn⟩ := List.getElem?_eq_some_iff.1 (getElem?_draws found single)
  obtain ⟨short', drawn'⟩ := List.getElem?_eq_some_iff.1 (getElem?_draws found' single')
  rw [Unrepeated, List.pairwise_iff_getElem] at unrepeated
  rcases Nat.lt_trichotomy i j with earlier | rfl | later
  · have before := drawsBefore_lt found (by simp [single]) earlier
    exact absurd (congrArg Prod.snd drawn') (unrepeated _ _ short short' before iv
      (congrArg Prod.snd drawn))
  · rfl
  · have before := drawsBefore_lt found' (by simp [single']) later
    exact absurd (congrArg Prod.snd drawn) (unrepeated _ _ short' short before iv
      (congrArg Prod.snd drawn'))

theorem issuedAt_of_stores {id : String} (mem : x ∈ session.history steps state)
    (stores : x.Stores session.site id text) :
    ∃ i, (session.history steps state)[i]? = some x ∧ session.IssuedAt steps state i text := by
  obtain ⟨i, found⟩ := List.mem_iff_getElem?.1 mem
  obtain ⟨faults, action, before, -, ran⟩ := step_of_getElem? found
  exact ⟨i, found, x, _, found, ran, .stored stores⟩

theorem Occurrence.Stores.id_eq {id id' text' : String} (stores : x.Stores session.site id text)
    (stores' : x.Stores session.site id' text') : id = id' := by
  obtain ⟨input, _, _, _, _, _, _, asks, -⟩ := stores
  obtain ⟨input', _, _, _, _, _, _, asks', -⟩ := stores'
  obtain ⟨operation, asked, brings⟩ := asks.brings
  obtain ⟨operation', asked', brings'⟩ := asks'.brings
  obtain rfl := Option.some.inj (asked.symm.trans asked')
  rcases brings with rfl | rfl <;> rcases brings' with same | same <;> cases same <;> rfl

end Session

/-- In every run, whatever it asks for and wherever it fails: the draws are those on record, of
sixteen bytes each, and each is given the next answer of the source; a step that comes to sealing
makes one of them and any other step makes none; a sealed text that a step gives away has the vector
that its own draw was answered with, a create or an update that succeeds gives one away, and
different steps have different draws. So if the source does not repeat itself, two texts with the
same vector are the same text of the same step, and passwords that the run stores for different ids
have different vectors. -/
theorem vectors_used_once (session : Session) (steps : List (Faults × Session.Action))
    (state : Scripted) :
    let history := session.history steps state
    let draws := history.flatMap Session.Occurrence.draws
    (session.after steps state).drawn = state.drawn ++ draws.map Prod.fst ∧
    (∀ k count answer, draws[k]? = some (count, answer) → count = 16 ∧ answer = state.supply k) ∧
    (∀ x ∈ history, (x.Encrypts session.site → ∃ answer, x.draws = [(16, answer)]) ∧
      (¬x.Encrypts session.site → x.draws = [])) ∧
    (∀ i text, session.IssuedAt steps state i text → ∃ x iv, history[i]? = some x ∧
      x.draws = [(16, .ok iv)] ∧ state.supply (Session.drawsBefore history i) = .ok iv ∧
      Sealed.vector? text = some iv) ∧
    (∀ i x report id input, history[i]? = some x → (session.run steps state)[i]? = some report →
      x.Asks session.site id input → ¬report.result.Failed →
      ∃ text, session.IssuedAt steps state i text) ∧
    (∀ i j x, history[i]? = some x → x.draws ≠ [] → i < j →
      Session.drawsBefore history i < Session.drawsBefore history j) ∧
    (Session.Unrepeated draws →
      (∀ i j text text', session.IssuedAt steps state i text →
        session.IssuedAt steps state j text' → Sealed.vector? text = Sealed.vector? text' →
        i = j ∧ text = text') ∧
      ∀ x ∈ history, ∀ y ∈ history, ∀ id id' text text', x.Stores session.site id text →
        y.Stores session.site id' text' → id ≠ id' →
        Sealed.vector? text ≠ Sealed.vector? text') := by
  intro history draws
  have drew := session.drew_after steps state
  have supplied : ∀ k count answer, draws[k]? = some (count, answer) →
      count = 16 ∧ answer = state.supply k := by
    intro k count answer found
    have whole : count = 16 := Session.count_of_mem_draws (List.mem_of_getElem? found)
    subst whole
    exact ⟨rfl, (drew.answers k 16 answer found).trans (state.supply_eq_given k).symm⟩
  refine ⟨drew.drawn, supplied, fun x mem => Session.settled_history mem, ?_, ?_, ?_, ?_⟩
  · intro i text issued
    obtain ⟨x, iv, found, single, vector⟩ := issued.vector
    have answered := (supplied _ _ _ (Session.getElem?_draws found single)).2
    exact ⟨x, iv, found, single, answered.symm, vector⟩
  · intro i x report id input found ran asks succeeded
    exact Session.issuedAt_of_succeeded found ran asks succeeded
  · intro i j x found drawn earlier
    exact Session.drawsBefore_lt found drawn earlier
  · intro unrepeated
    constructor
    · intro i j text text' issued issued' same
      obtain rfl := issued.place_eq unrepeated issued' same
      exact ⟨rfl, issued.unique issued'⟩
    · intro x mem y mem' id id' text text' stores stores' other same
      obtain ⟨i, found, issued⟩ := Session.issuedAt_of_stores mem stores
      obtain ⟨j, found', issued'⟩ := Session.issuedAt_of_stores mem' stores'
      obtain rfl := issued.place_eq unrepeated issued' same
      obtain rfl := Option.some.inj (found.symm.trans found')
      exact other (stores.id_eq stores')

def retrying : List (Faults × Session.Action) :=
  [({}, .operation (.encrypt "p")),
    ({ put := some (.fail .preconditionFailed) },
      .operation (.create "c" ⟨.integer 3, "m", "p"⟩)),
    ({}, .operation (.create "c" ⟨.integer 3, "m", "p"⟩))]

theorem vectors_used_once_retrying :
    let session := keyedBy 0
    (session.after retrying resting.state).drawn = [16, 16, 16] ∧
    ∃ text text', session.IssuedAt retrying resting.state 0 text ∧
      session.IssuedAt retrying resting.state 2 text' ∧
      Sealed.vector? text ≠ Sealed.vector? text' ∧
      Sealed.vector? text' = some (Scripted.counted 2 16) := by
  intro session
  obtain ⟨recorded, -, -, vectors, succeeds, -, distinct⟩ :=
    vectors_used_once session retrying resting.state
  have draws : (session.history retrying resting.state).flatMap Session.Occurrence.draws =
      [(16, .ok (Scripted.counted 0 16)), (16, .ok (Scripted.counted 1 16)),
        (16, .ok (Scripted.counted 2 16))] := by decide +kernel
  have unrepeated : Session.Unrepeated
      ((session.history retrying resting.state).flatMap Session.Occurrence.draws) := by
    have first : Scripted.counted 0 16 ≠ Scripted.counted 1 16 := by decide
    have last : Scripted.counted 0 16 ≠ Scripted.counted 2 16 := by decide
    have second : Scripted.counted 1 16 ≠ Scripted.counted 2 16 := by decide
    rw [draws]
    simp [Session.Unrepeated, first.symm, last.symm, second.symm]
  have encrypted : Sealed.encrypt ⟨List.replicate 32 0, rfl⟩ (Scripted.counted 0 16)
      (Utf8.encode "p") = _ := Cipher.encrypt_eq_chained rfl _
  have told := @Session.step_encrypt session {} resting.state ⟨List.replicate 32 0, rfl⟩
    (Scripted.counted 0 16) rfl rfl "p"
  rw [encrypted] at told
  have issued : session.IssuedAt retrying resting.state 0 _ := ⟨_, _, rfl, rfl, .encrypted rfl told⟩
  obtain ⟨text', issued'⟩ := succeeds 2 _ _ "c" _ rfl rfl (.inl rfl) (by decide +kernel)
  refine ⟨?_, _, text', issued, issued', ?_, ?_⟩
  · rw [recorded, draws]
    rfl
  · intro same
    cases ((distinct unrepeated).1 _ _ _ _ issued issued' same).1
  · obtain ⟨x, iv, -, -, supplied, vector⟩ := vectors 2 text' issued'
    have third : Session.drawsBefore (session.history retrying resting.state) 2 = 2 := by
      decide +kernel
    rw [third] at supplied
    rw [vector, ← Except.ok.inj supplied]
    rfl

end AccountVault
