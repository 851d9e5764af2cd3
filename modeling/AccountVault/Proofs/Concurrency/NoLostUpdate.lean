import AccountVault.Proofs.Concurrency.World

/-!
# No update is lost

Nothing but tags keeps callers that share a store from overwriting one another. The invariant
`World.Sound` follows every caller's exchanges and every commit through a schedule: what a caller
has fetched still goes with its tag, if that tag is current, and each write was computed from the
bytes it replaced. Hence the commits can be run one after another, each operation in one go, and
lead to the same store.
-/

namespace AccountVault

open Program

def fetched? (past : List Exchange) : Option StoredObject :=
  past.findSome? fun x => match x with
    | .get _ (.ok object) => some object
    | _ => none

def Operation.Finds (document : Document) : Operation → Prop
  | create id _ => document.contains id = false
  | update id _ | delete id => document.contains id = true
  | _ => False

theorem Operation.Rewrites.finds {service : Service} {operation : Operation}
    {drawn : List Exchange} {document changed : Document}
    (h : operation.Rewrites service drawn document changed) : operation.Finds document := by
  cases h with
  | create absent stored => exact absent
  | update present stored => exact present
  | delete present => exact present

/-- A write as it should be: the caller has fetched `object`, and puts in the place of the document
in it that document with its own change. -/
structure Grounded (caller : Caller) (past : List Exchange) (before : MemoryStore) (body : Bytes)
    (object : StoredObject) : Prop where
  drawn : ∃ drawn document changed, past = caller.service.fetched object ++ drawn ∧
    Document.parse object.body = .ok document ∧
    caller.operation.Rewrites caller.service drawn document changed ∧ body = changed.write
  current : ∀ etag, object.etag = some etag →
    before.objects caller.service.location = some (object.body, etag)

variable {ι : Type} {callers : ι → Caller} {world : World ι}

structure World.Sound (callers : ι → Caller) (world : World ι) : Prop where
  issued : world.store.Issued
  meets : ∀ i, Meets ((callers i).operation.Turn (callers i).service)
    (callers i).operation.Concludes (world.progress i).rest (world.progress i).past
  dates : ∀ i location object, .get location (.ok object) ∈ (world.progress i).past →
    world.store.Dates location object
  drawn : ∀ i count answer, .draw count answer ∈ (world.progress i).past →
    answer = (callers i).draw count
  recorded : ∀ i, Confirmed (world.progress i).past ↔
    ∃ past before body, .write i past before body ∈ world.history
  grounded : ∀ i past before body, .write i past before body ∈ world.history →
    ∃ object, Grounded (callers i) past before body object
  spent : ∀ i past before body location object etag, .write i past before body ∈ world.history →
    .get location (.ok object) ∈ past → object.etag = some etag →
    world.store.Spent location etag
  single : ∀ i j past past' before before' body body' location object object' etag,
    .write i past before body ∈ world.history → .write j past' before' body' ∈ world.history →
    .get location (.ok object) ∈ past → .get location (.ok object') ∈ past' →
    object.etag = some etag → object'.etag = some etag → i = j

namespace World

theorem sound_start (h : ∀ i, (callers i).operation.OnAccounts) :
    (start callers).Sound callers where
  issued := MemoryStore.issued_empty
  meets i := Operation.meets_run (h i)
  dates i location object hx := absurd hx List.not_mem_nil
  drawn i count answer hx := absurd hx List.not_mem_nil
  recorded i := by
    constructor
    · exact fun h => absurd h (not_confirmed fun x hx => absurd hx List.not_mem_nil)
    · rintro ⟨past, before, body, hx⟩
      exact absurd hx List.not_mem_nil
  grounded i past before body hx := absurd hx List.not_mem_nil
  spent i past before body location object etag hx := absurd hx List.not_mem_nil
  single i j past past' before before' body body' location object object' etag hx :=
    absurd hx List.not_mem_nil

variable [DecidableEq ι]

theorem meets_resume (h : world.Sound callers) {i : ι} {rest : Program Reply}
    {exchanged : List Exchange} (hs : (world.progress i).rest.Step exchanged rest) (j : ι) :
    Meets ((callers j).operation.Turn (callers j).service) (callers j).operation.Concludes
      ((world.resume i rest exchanged).progress j).rest
      ((world.resume i rest exchanged).progress j).past := by
  rw [progress_resume]
  by_cases hj : j = i
  · subst hj
    rw [if_pos rfl]
    exact ((h.meets j).step hs).2
  · rw [if_neg hj]
    exact h.meets j

theorem dates_of_answeredBy {draw : Nat → Except IvError Bytes} {tagged : Bool}
    {store : MemoryStore} {location : Location} {object : StoredObject} (h : store.Issued)
    (hx : Exchange.AnsweredBy draw tagged store (.get location (.ok object))) :
    store.Dates location object := by
  have hx : store.fetch tagged location = .ok object := hx.symm
  unfold MemoryStore.fetch at hx
  cases hg : store.get location with
  | error e => simp [hg, Except.map] at hx
  | ok found =>
    have dated := h.dates_of_get hg
    simp only [hg, Except.map, Except.ok.injEq] at hx
    subst hx
    cases tagged with
    | true => exact dated
    | false => exact fun etag he => by simp at he

theorem confirmed_append {past exchanged : List Exchange}
    (h : ∀ x ∈ exchanged, ∀ location body ifMatch tag,
      x ≠ .put location body ifMatch (.ok (some tag))) :
    Confirmed (past ++ exchanged) ↔ Confirmed past := by
  constructor
  · rintro ⟨location, body, ifMatch, tag, hx⟩
    rcases List.mem_append.1 hx with hx | hx
    · exact ⟨location, body, ifMatch, tag, hx⟩
    · exact absurd rfl (h _ hx location body ifMatch tag)
  · rintro ⟨location, body, ifMatch, tag, hx⟩
    exact ⟨location, body, ifMatch, tag, List.mem_append_left _ hx⟩

theorem Sound.resume (h : world.Sound callers) {i : ι} {tagged : Bool} {rest : Program Reply}
    {exchanged : List Exchange} (hs : (world.progress i).rest.Step exchanged rest)
    (ha : ∀ x ∈ exchanged, x.AnsweredBy (callers i).draw tagged world.store) :
    (world.resume i rest exchanged).Sound callers where
  issued := h.issued
  meets := meets_resume h hs
  dates j location object hx := by
    rcases mem_past_resume hx with hx | ⟨-, hx⟩
    · exact h.dates j location object hx
    · exact dates_of_answeredBy h.issued (ha _ hx)
  drawn j count answer hx := by
    rcases mem_past_resume hx with hold | ⟨rfl, hnew⟩
    · exact h.drawn j count answer hold
    · exact ha _ hnew
  recorded j := by
    rw [history_resume, ← h.recorded j, progress_resume]
    by_cases hj : j = i
    · subst hj
      rw [if_pos rfl]
      refine confirmed_append fun x hx location body ifMatch tag he => ?_
      subst he
      obtain ⟨e, he⟩ := ha _ hx
      cases he
    · rw [if_neg hj]
  grounded := h.grounded
  spent := h.spent
  single := h.single

theorem objects_of_permits_fetched {store : MemoryStore} {location : Location}
    {object : StoredObject} (dates : store.Dates location object)
    (granted : store.permits location object.etag = .ok ()) {etag : String}
    (he : object.etag = some etag) : store.objects location = some (object.body, etag) := by
  rw [he] at granted
  obtain ⟨body, found⟩ := MemoryStore.objects_of_permits granted
  rw [← (dates etag he).2 body found]
  exact found

omit [DecidableEq ι] in
theorem Sound.grounded_of_put (h : world.Sound callers) {i : ι} {rest : Program Reply}
    {location : Location} {body : Bytes} {ifMatch : Option String}
    {answer : Except StoreError (Option String)}
    (hs : (world.progress i).rest.Step [.put location body ifMatch answer] rest)
    (granted : world.store.permits location ifMatch = .ok ()) :
    ∃ object, location = (callers i).service.location ∧ ifMatch = object.etag ∧
      Grounded (callers i) (world.progress i).past world.store body object := by
  have turn := ((h.meets i).step hs).1 _ (List.mem_singleton.2 rfl)
  obtain ⟨object, document, changed, drawn, hpast, parsed, change, rfl, rfl, rfl⟩ := turn.of_put
  refine ⟨object, rfl, rfl, ⟨drawn, document, changed, hpast, parsed, change, rfl⟩, ?_⟩
  have dates := h.dates i (callers i).service.location object (by simp [hpast, Service.fetched])
  exact fun etag he => objects_of_permits_fetched dates granted he

omit [DecidableEq ι] in
theorem Sound.spent_insert (h : world.Sound callers) {caller : Caller} {past : List Exchange}
    {body : Bytes} {object object' : StoredObject} {location : Location} {etag : String}
    (ground : Grounded caller past world.store body object)
    (hx : .get location (.ok object') ∈ past) (he : object'.etag = some etag) :
    location = caller.service.location ∧
      (∃ body', world.store.objects location = some (body', etag)) ∧
      (world.store.insert caller.service.location body).Spent location etag := by
  obtain ⟨drawn, document, changed, rfl, -, change, -⟩ := ground.drawn
  obtain ⟨rfl, rfl⟩ := change.eq_of_mem hx
  have found := ground.current etag he
  exact ⟨rfl, ⟨_, found⟩, h.issued.spent found⟩

theorem Sound.commit (h : world.Sound callers) {i : ι} {rest : Program Reply}
    {location : Location} {body : Bytes} {ifMatch : Option String}
    (hs : (world.progress i).rest.Step
      [.put location body ifMatch (.ok (some (MemoryStore.tag (world.store.version + 1))))] rest)
    (granted : world.store.permits location ifMatch = .ok ()) :
    (world.commit i rest location body ifMatch).Sound callers := by
  obtain ⟨object, rfl, rfl, ground⟩ := h.grounded_of_put hs granted
  constructor
  case issued => exact h.issued.insert
  case meets => exact meets_resume h hs
  case dates =>
    intro j location object' hx
    rcases mem_past_resume hx with hx | ⟨-, hx⟩
    · exact (h.dates j location object' hx).insert
    · simp at hx
  case drawn =>
    intro j count answer hx
    rcases mem_past_resume hx with hx | ⟨-, hx⟩
    · exact h.drawn j count answer hx
    · simp at hx
  case recorded =>
    intro j
    by_cases hj : j = i
    · subst hj
      refine ⟨fun _ => ⟨_, _, _, List.mem_append_right _ (List.mem_singleton.2 rfl)⟩, fun _ => ?_⟩
      rw [progress_commit, progress_resume, if_pos rfl]
      exact ⟨_, _, _, _, List.mem_append_right _ (List.mem_singleton.2 rfl)⟩
    · rw [progress_commit, progress_resume, if_neg hj, h.recorded j]
      simp [World.commit, hj]
  case grounded =>
    intro j past before body' hx
    rcases List.mem_append.1 hx with hx | hx
    · exact h.grounded j past before body' hx
    · cases List.mem_singleton.1 hx
      exact ⟨object, ground⟩
  case spent =>
    intro j past before body' location object' etag hx hget he
    rcases List.mem_append.1 hx with hx | hx
    · exact (h.spent j past before body' location object' etag hx hget he).insert
    · cases List.mem_singleton.1 hx
      exact (h.spent_insert ground hget he).2.2
  case single =>
    intro j k past past' before before' body₁ body₂ location object₁ object₂ etag hj hk gj gk ej ek
    rcases List.mem_append.1 hj with hj | hj
    · rcases List.mem_append.1 hk with hk | hk
      · exact h.single j k _ _ _ _ _ _ location object₁ object₂ etag hj hk gj gk ej ek
      · cases List.mem_singleton.1 hk
        obtain ⟨-, ⟨body', found⟩, -⟩ := h.spent_insert ground gk ek
        exact absurd found ((h.spent j _ _ _ location object₁ etag hj gj ej).2 body')
    · cases List.mem_singleton.1 hj
      rcases List.mem_append.1 hk with hk | hk
      · obtain ⟨-, ⟨body', found⟩, -⟩ := h.spent_insert ground gj ej
        exact absurd found ((h.spent k _ _ _ location object₂ etag hk gk ek).2 body')
      · cases List.mem_singleton.1 hk
        rfl

theorem Sound.replace (h : world.Sound callers) (location : Location) (body : Bytes) :
    (world.step callers (.replace location body)).Sound callers where
  issued := h.issued.insert
  meets := h.meets
  dates i location' object hx := (h.dates i location' object hx).insert
  drawn := h.drawn
  recorded i := by simpa [step] using h.recorded i
  grounded i past before body' hx := by
    simp only [step, List.mem_append, List.mem_singleton, reduceCtorEq, or_false] at hx
    exact h.grounded i past before body' hx
  spent i past before body' location' object etag hx hget he := by
    simp only [step, List.mem_append, List.mem_singleton, reduceCtorEq, or_false] at hx
    exact (h.spent i past before body' location' object etag hx hget he).insert
  single i j past past' before before' body₁ body₂ location' object₁ object₂ etag hi hj := by
    simp only [step, List.mem_append, List.mem_singleton, reduceCtorEq, or_false] at hi hj
    exact h.single i j past past' before before' body₁ body₂ location' object₁ object₂ etag hi hj

theorem Sound.step (h : world.Sound callers) (move : Move ι) :
    (world.step callers move).Sound callers := by
  cases move with
  | replace location body => exact h.replace location body
  | advance i tagged =>
    change (world.advance callers i tagged).Sound callers
    rcases world.advance_cases callers i tagged with he | ⟨rest, exchanged, hs, ha, he⟩ |
      ⟨rest, location, body, ifMatch, hs, granted, he⟩
    · rw [he]
      exact h
    · rw [he]
      exact h.resume hs ha
    · rw [he]
      exact h.commit hs granted

theorem sound_run (h : ∀ i, (callers i).operation.OnAccounts) (moves : List (Move ι)) :
    (run callers moves).Sound callers := by
  unfold run
  induction moves using List.reverseRecOn with
  | nil => exact sound_start h
  | append_singleton moves move ih =>
    rw [List.foldl_append]
    exact ih.step move

end World

end AccountVault
