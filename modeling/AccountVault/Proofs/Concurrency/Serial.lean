import AccountVault.Proofs.Concurrency.NoLostUpdate

/-!
# Commits one after another

A caller that has the store for itself is answered as it was answered in the schedule, up to its
write, if the store still holds what it fetched. So running the operations of the commits alone,
each in one go and in the order of the commits, leads to the store that the schedule leads to.
-/

namespace AccountVault

open Program

def MemoryStore.backend (draw : Nat → Except IvError Bytes) : Backend MemoryStore where
  head location store := (some (store.head location), store)
  get location store := (some (store.get location), store)
  put location body ifMatch store :=
    let (answer, after) := store.put location body ifMatch
    (some answer, after)
  draw count store := (draw count, store)

/-- The store after a commit that has it for itself: the operation of a write is run as a whole. -/
def Commit.serve {ι : Type} (callers : ι → Caller) (store : MemoryStore) : Commit ι → MemoryStore
  | write i _ _ _ =>
    ((callers i).program.run (MemoryStore.backend (callers i).draw) store).state
  | replace location body => store.insert location body

/-- An exchange that a caller alone with the store would have too, and that changes nothing. -/
def Exchange.AgreesWith (draw : Nat → Except IvError Bytes) (store : MemoryStore) :
    Exchange → Prop
  | head location answer => answer = store.head location
  | get location answer => answer = store.get location
  | put _ _ _ _ => False
  | Exchange.draw count answer => answer = draw count

theorem Program.Step.state_run {α : Type} {p q : Program α} {exchanged : List Exchange}
    {draw : Nat → Except IvError Bytes} {store : MemoryStore} (hs : p.Step exchanged q)
    (ha : ∀ x ∈ exchanged, x.AgreesWith draw store) :
    (p.run (MemoryStore.backend draw) store).state =
      (q.run (MemoryStore.backend draw) store).state := by
  cases hs with
  | log => rfl
  | head answer =>
    have same : answer = store.head _ := ha _ (List.mem_singleton.2 rfl)
    subst same
    rfl
  | get answer =>
    have same : answer = store.get _ := ha _ (List.mem_singleton.2 rfl)
    subst same
    rfl
  | put answer => exact absurd (ha _ (List.mem_singleton.2 rfl)) id
  | draw answer =>
    have same : answer = draw _ := ha _ (List.mem_singleton.2 rfl)
    subst same
    rfl

theorem Operation.state_run_of_isPut {σ : Type} {service : Service} {operation : Operation}
    {rest : Program Reply} {past : List Exchange} (backend : Backend σ) (state : σ)
    (h : Meets (operation.Turn service) operation.Concludes rest past)
    (hp : ∃ x ∈ past, x.IsPut) : (rest.run backend state).state = state := by
  obtain ⟨x, hx, isPut⟩ := hp
  induction rest with
  | done reply => rfl
  | head location next ih => exact absurd isPut ((h (.ok ())).1.not_isPut x hx)
  | get location next ih => exact absurd isPut ((h (.error .notFound)).1.not_isPut x hx)
  | put location body ifMatch next ih => exact absurd isPut ((h (.ok none)).1.not_isPut x hx)
  | draw count next ih => exact absurd isPut ((h (.ok [])).1.not_isPut x hx)
  | log event next ih => exact ih h

variable {ι : Type} {callers : ι → Caller} {world : World ι}

structure World.Serial (callers : ι → Caller) (world : World ι) : Prop where
  alone : ∀ i store, (∀ x ∈ (world.progress i).past, x.AgreesWith (callers i).draw store) →
    ((callers i).program.run (MemoryStore.backend (callers i).draw) store).state =
      ((world.progress i).rest.run (MemoryStore.backend (callers i).draw) store).state
  tagged : ∀ i location object, .get location (.ok object) ∈ (world.progress i).past →
    ∃ etag, object.etag = some etag
  committed : ∀ i past before body, .write i past before body ∈ world.history →
    ∀ location object, .get location (.ok object) ∈ past → ∃ etag, object.etag = some etag
  served : world.store = world.history.foldl (Commit.serve callers) .empty

namespace World

theorem serial_start : (start callers).Serial callers where
  alone _ _ _ := rfl
  tagged _ _ _ hx := absurd hx List.not_mem_nil
  committed _ _ _ _ hx := absurd hx List.not_mem_nil
  served := rfl

theorem Sound.agrees (h : world.Sound callers) {i : ι} {body : Bytes} {object : StoredObject}
    {etag : String} (he : object.etag = some etag)
    (ground : Grounded (callers i) (world.progress i).past world.store body object) :
    ∀ x ∈ (world.progress i).past, x.AgreesWith (callers i).draw world.store := by
  have found := ground.current etag he
  obtain ⟨drawn, document, changed, hpast, -, change, -⟩ := ground.drawn
  have hd := h.drawn i
  rw [hpast] at hd ⊢
  intro x hx
  rcases List.mem_append.1 hx with hx' | hx'
  · simp only [Service.fetched, List.mem_cons, List.not_mem_nil, or_false] at hx'
    rcases hx' with rfl | rfl
    · simp [Exchange.AgreesWith, MemoryStore.head, found]
    · simp [Exchange.AgreesWith, MemoryStore.get, found, ← he]
  · obtain ⟨iv, rfl⟩ := change.drawn_eq x hx'
    exact hd _ _ hx

variable [DecidableEq ι]

theorem alone_resume (h : world.Serial callers) {i : ι} {rest : Program Reply}
    {exchanged : List Exchange} (hs : (world.progress i).rest.Step exchanged rest) (j : ι)
    (store : MemoryStore) (ha : ∀ x ∈ ((world.resume i rest exchanged).progress j).past,
      x.AgreesWith (callers j).draw store) :
    ((callers j).program.run (MemoryStore.backend (callers j).draw) store).state =
      (((world.resume i rest exchanged).progress j).rest.run
        (MemoryStore.backend (callers j).draw) store).state := by
  rw [progress_resume] at ha ⊢
  by_cases hj : j = i
  · subst hj
    rw [if_pos rfl] at ha ⊢
    rw [h.alone j store fun x hx => ha x (List.mem_append_left _ hx)]
    exact hs.state_run fun x hx => ha x (List.mem_append_right _ hx)
  · rw [if_neg hj] at ha ⊢
    exact h.alone j store ha

theorem Serial.resume (h : world.Serial callers) {i : ι} {rest : Program Reply}
    {exchanged : List Exchange} (hs : (world.progress i).rest.Step exchanged rest)
    (ha : ∀ x ∈ exchanged, x.AnsweredBy (callers i).draw true world.store) :
    (world.resume i rest exchanged).Serial callers where
  alone := alone_resume h hs
  tagged j location object hx := by
    rcases mem_past_resume hx with hx | ⟨-, hx⟩
    · exact h.tagged j location object hx
    · have answer : .ok object = world.store.fetch true location := ha _ hx
      exact MemoryStore.etag_of_fetch answer.symm
  committed := h.committed
  served := h.served

omit [DecidableEq ι] in
theorem Serial.state_run (h : world.Serial callers) (sound : world.Sound callers) {i : ι}
    {rest : Program Reply} {location : Location} {body : Bytes} {ifMatch : Option String}
    (hs : (world.progress i).rest.Step
      [.put location body ifMatch (.ok (some (MemoryStore.tag (world.store.version + 1))))] rest)
    (granted : world.store.permits location ifMatch = .ok ()) :
    ((callers i).program.run (MemoryStore.backend (callers i).draw) world.store).state =
      world.store.insert location body := by
  obtain ⟨object, hl, hm, ground⟩ := sound.grounded_of_put hs granted
  obtain ⟨drawn, document, changed, hpast, -⟩ := ground.drawn
  obtain ⟨etag, he⟩ := h.tagged i (callers i).service.location object
    (by simp [hpast, Service.fetched])
  rw [h.alone i world.store (sound.agrees he ground)]
  have quiet := ((sound.meets i).step hs).2
  generalize hp : (world.progress i).rest = p at hs
  cases hs with
  | put answer =>
    have hput : world.store.put location body ifMatch =
        (.ok (some (MemoryStore.tag (world.store.version + 1))),
          world.store.insert location body) := by
      rw [MemoryStore.put, granted]
    simp only [Program.run, MemoryStore.backend, hput]
    exact Operation.state_run_of_isPut _ _ quiet
      ⟨_, List.mem_append_right _ (List.mem_singleton.2 rfl), trivial⟩

theorem Serial.commit (h : world.Serial callers) (sound : world.Sound callers) {i : ι}
    {rest : Program Reply} {location : Location} {body : Bytes} {ifMatch : Option String}
    (hs : (world.progress i).rest.Step
      [.put location body ifMatch (.ok (some (MemoryStore.tag (world.store.version + 1))))] rest)
    (granted : world.store.permits location ifMatch = .ok ()) :
    (world.commit i rest location body ifMatch).Serial callers where
  alone := alone_resume h hs
  tagged j location' object hx := by
    rcases mem_past_resume hx with hx | ⟨-, hx⟩
    · exact h.tagged j location' object hx
    · simp at hx
  committed j past before body' hx := by
    rcases List.mem_append.1 hx with hx | hx
    · exact h.committed j past before body' hx
    · cases List.mem_singleton.1 hx
      exact h.tagged i
  served := by
    simp only [World.commit, List.foldl_append, List.foldl_cons, List.foldl_nil, ← h.served]
    exact (h.state_run sound hs granted).symm

theorem Serial.step (h : world.Serial callers) (sound : world.Sound callers) {move : Move ι}
    (tagged : move.Tagged) : (world.step callers move).Serial callers := by
  cases move with
  | replace location body =>
    refine ⟨h.alone, h.tagged, fun i past before body' hx => ?_, ?_⟩
    · simp only [World.step, List.mem_append, List.mem_singleton, reduceCtorEq, or_false] at hx
      exact h.committed i past before body' hx
    · simp [World.step, List.foldl_append, ← h.served, Commit.serve]
  | advance i flag =>
    have hf : flag = true := tagged
    subst hf
    change (world.advance callers i true).Serial callers
    rcases world.advance_cases callers i true with he | ⟨rest, exchanged, hs, ha, he⟩ |
      ⟨rest, location, body, ifMatch, hs, granted, he⟩
    · rw [he]
      exact h
    · rw [he]
      exact h.resume hs ha
    · rw [he]
      exact h.commit sound hs granted

theorem serial_run (h : ∀ i, (callers i).operation.OnAccounts) (moves : List (Move ι))
    (tagged : ∀ move ∈ moves, move.Tagged) : (run callers moves).Serial callers := by
  induction moves using List.reverseRecOn with
  | nil => exact serial_start
  | append_singleton moves move ih =>
    have sound := sound_run h moves
    unfold run at ih sound ⊢
    rw [List.foldl_append]
    refine (ih fun m hm => tagged m ?_).step sound (tagged move ?_)
    · exact List.mem_append_left _ hm
    · exact List.mem_append_right _ (List.mem_singleton.2 rfl)

end World

theorem fetched?_append (service : Service) (object : StoredObject) (drawn : List Exchange) :
    fetched? (service.fetched object ++ drawn) = some object := rfl

/-- No lost update. In every schedule a write whose fetch came with a tag replaces the very bytes it
was computed from, and stores the document in them with its own change; an operation that changes
the document succeeds exactly when it is among the commits. If no tag is lost, the store is that of
the commits run one after another, each operation in one go, and every operation found the id free
or taken, as it needs it, in the document current at its commit. Of the callers that fetched a
version of the document at most one commits. -/
theorem no_lost_update [DecidableEq ι] (callers : ι → Caller)
    (onAccounts : ∀ i, (callers i).operation.OnAccounts) (moves : List (Move ι)) :
    let world := World.run callers moves
    (∀ i past before body, .write i past before body ∈ world.history →
      ∀ object etag, fetched? past = some object → object.etag = some etag →
        before.body? (callers i).service.location = some object.body ∧
        ∃ drawn document changed, past = (callers i).service.fetched object ++ drawn ∧
          Document.parse object.body = .ok document ∧
          (callers i).operation.Rewrites (callers i).service drawn document changed ∧
          body = changed.write) ∧
    (∀ i reply, (world.progress i).rest = .done reply → (callers i).operation.Changes →
      ((∃ answer, reply = .account answer) ↔
        ∃ past before body, .write i past before body ∈ world.history)) ∧
    ((∀ move ∈ moves, move.Tagged) →
      world.store = world.history.foldl (Commit.serve callers) .empty ∧
      ∀ i past before body, .write i past before body ∈ world.history →
        ∃ document, before.document? (callers i).service.location = some (.ok document) ∧
          (callers i).operation.Finds document) ∧
    (∀ i j past past' before before' body body' object object' etag,
      .write i past before body ∈ world.history → .write j past' before' body' ∈ world.history →
      (callers i).service.location = (callers j).service.location →
      fetched? past = some object → fetched? past' = some object' →
      object.etag = some etag → object'.etag = some etag → i = j) := by
  intro world
  have sound := World.sound_run onAccounts moves
  refine ⟨?_, ?_, ?_, ?_⟩
  · intro i past before body hw object etag hf he
    obtain ⟨object', ground⟩ := sound.grounded i past before body hw
    obtain ⟨drawn, document, changed, rfl, parsed, change, rfl⟩ := ground.drawn
    obtain rfl : object' = object := by simpa [fetched?_append] using hf
    refine ⟨?_, drawn, document, changed, rfl, parsed, change, rfl⟩
    rw [MemoryStore.body?, ground.current etag he]
    rfl
  · intro i reply hd changes
    have concludes := sound.meets i
    rw [hd] at concludes
    exact (concludes changes).trans (sound.recorded i)
  · intro tagged
    have serial := World.serial_run onAccounts moves tagged
    refine ⟨serial.served, fun i past before body hw => ?_⟩
    obtain ⟨object, ground⟩ := sound.grounded i past before body hw
    obtain ⟨drawn, document, changed, hpast, parsed, change, -⟩ := ground.drawn
    obtain ⟨etag, he⟩ := serial.committed i past before body hw (callers i).service.location object
      (by simp [hpast, Service.fetched])
    refine ⟨document, ?_, change.finds⟩
    rw [MemoryStore.document?, MemoryStore.body?, ground.current etag he]
    exact congrArg some parsed
  · intro i j past past' before before' body body' object object' etag hi hj same fi fj ei ej
    obtain ⟨o, ground⟩ := sound.grounded i past before body hi
    obtain ⟨o', ground'⟩ := sound.grounded j past' before' body' hj
    obtain ⟨drawn, document, changed, rfl, -⟩ := ground.drawn
    obtain ⟨drawn', document', changed', rfl, -⟩ := ground'.drawn
    obtain rfl : o = object := by simpa [fetched?_append] using fi
    obtain rfl : o' = object' := by simpa [fetched?_append] using fj
    refine sound.single i j _ _ _ _ _ _ (callers i).service.location o o' etag hi hj ?_ ?_ ei ej
    · simp [Service.fetched]
    · simp [Service.fetched, same]

def twoDeletes (second : Bool) : Caller :=
  ⟨⟨⟨"bucket", "key"⟩, none⟩, .delete (if second then "b" else "a"), fun _ => .error .empty⟩

def overlapping : List (Move Bool) :=
  .replace ⟨"bucket", "key"⟩
      ((Document.single "a" ⟨.integer 1, "k", none⟩).insert "b" ⟨.integer 2, "k", none⟩).write ::
    ((List.replicate 3 [.advance false true, .advance true true]).flatten ++
      (List.replicate 6 (.advance false true) ++ List.replicate 6 (.advance true true)))

theorem no_lost_update_overlapping :
    (World.run twoDeletes overlapping).history.length = 2 ∧
    (World.run twoDeletes overlapping).store =
      (World.run twoDeletes overlapping).history.foldl (Commit.serve twoDeletes) .empty := by
  have h := no_lost_update twoDeletes (fun i => trivial) overlapping
  exact ⟨by decide +kernel, (h.2.2.1 (by decide +kernel)).1⟩

end AccountVault
