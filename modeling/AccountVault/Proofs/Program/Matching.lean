import Mathlib
import AccountVault.Store.Scripted
import AccountVault.Proofs.Program.Contract

/-!
# Two programs side by side

Two programs match when they make the same calls at one location and log the same events, as long as
the bodies they fetch are related, and write related bodies themselves. Run over two stores that
hold related bodies there, with the same faults and the same random bytes, matching programs cannot
be told apart except by those bodies.
-/

namespace AccountVault

namespace Program

variable {α β γ δ : Type} {location : Location} {bodies : Bytes → Bytes → Prop}

/-- The programs go on alike, and their values are related by `values`. -/
inductive Matches (location : Location) (bodies : Bytes → Bytes → Prop) (values : α → β → Prop) :
    Program α → Program β → Prop
  | done {a b} (h : values a b) : Matches location bodies values (.done a) (.done b)
  | head {next next'} (h : ∀ answer, Matches location bodies values (next answer) (next' answer)) :
    Matches location bodies values (.head location next) (.head location next')
  | get {next next'}
      (refused : ∀ e, Matches location bodies values (next (.error e)) (next' (.error e)))
      (fetched : ∀ body body' etag, bodies body body' →
        Matches location bodies values (next (.ok ⟨body, etag⟩)) (next' (.ok ⟨body', etag⟩))) :
    Matches location bodies values (.get location next) (.get location next')
  | put {body body' ifMatch next next'} (hb : bodies body body')
      (h : ∀ answer, Matches location bodies values (next answer) (next' answer)) :
    Matches location bodies values (.put location body ifMatch next)
      (.put location body' ifMatch next')
  | draw {count next next'}
      (h : ∀ answer, Matches location bodies values (next answer) (next' answer)) :
    Matches location bodies values (.draw count next) (.draw count next')
  | log {event next next'} (h : Matches location bodies values next next') :
    Matches location bodies values (.log event next) (.log event next')

theorem Matches.bind {values : α → β → Prop} {values' : γ → δ → Prop} {p : Program α}
    {q : Program β} {f : α → Program γ} {g : β → Program δ}
    (h : Matches location bodies values p q)
    (hf : ∀ a b, values a b → Matches location bodies values' (f a) (g b)) :
    Matches location bodies values' (p.bind f) (q.bind g) := by
  induction h with
  | done hv => exact hf _ _ hv
  | head _ ih => exact .head ih
  | get _ _ refused fetched => exact .get refused fetched
  | put hb _ ih => exact .put hb ih
  | draw _ ih => exact .draw ih
  | log _ ih => exact .log ih

inductive Concur (values : α → β → Prop) : Except Failure α → Except Failure β → Prop
  | ok {a b} (h : values a b) : Concur values (.ok a) (.ok b)
  | error (failure : Failure) : Concur values (.error failure) (.error failure)

theorem Concur.eq {x y : Except Failure α} (h : Concur Eq x y) : x = y := by
  cases h with
  | ok h => rw [h]
  | error failure => rfl

theorem Matches.attempt_bind {values : α → β → Prop} {values' : γ → δ → Prop} {x : Attempt α}
    {y : Attempt β} {f : α → Attempt γ} {g : β → Attempt δ}
    (h : Matches location bodies (Concur values) x.run y.run)
    (hf : ∀ a b, values a b → Matches location bodies (Concur values') (f a).run (g b).run) :
    Matches location bodies (Concur values') (x >>= f).run (y >>= g).run := by
  refine Matches.bind h fun a b hv => ?_
  cases hv with
  | ok hv => exact hf _ _ hv
  | error failure => exact .done (.error failure)

theorem Silent.matches_self {p : Program α} (h : p.Silent) : Matches location bodies Eq p p := by
  induction h with
  | done a => exact .done rfl
  | log event h ih => exact .log ih

end Program

namespace Scripted

/-- The stores hold related bodies under the same tag, and nothing else tells the states apart. -/
structure Paired (location : Location) (bodies : Bytes → Bytes → Prop) (s t : Scripted) : Prop where
  prepared : s.prepared = t.prepared
  drawn : s.drawn.length = t.drawn.length
  calls : s.calls = t.calls
  version : s.store.version = t.store.version
  object : Option.Rel (fun x y => bodies x.1 y.1 ∧ x.2 = y.2) (s.store.objects location)
    (t.store.objects location)

variable {location : Location} {bodies : Bytes → Bytes → Prop} {s t : Scripted} {faults : Faults}

theorem Paired.record (h : Paired location bodies s t) (call : Call) :
    Paired location bodies (s.record call) (t.record call) :=
  ⟨h.prepared, h.drawn, by simp only [Scripted.record, h.calls], h.version, h.object⟩

theorem Paired.insert (h : Paired location bodies s t) {body body' : Bytes}
    (hb : bodies body body') :
    Paired location bodies { s with store := s.store.insert location body }
      { t with store := t.store.insert location body' } where
  prepared := h.prepared
  drawn := h.drawn
  calls := h.calls
  version := congrArg (· + 1) h.version
  object := by
    rw [MemoryStore.objects_insert_self, MemoryStore.objects_insert_self]
    exact .some ⟨hb, by rw [h.version]⟩

inductive Fetched (bodies : Bytes → Bytes → Prop) :
    Option (Except StoreError StoredObject) → Option (Except StoreError StoredObject) → Prop
  | cutOff : Fetched bodies none none
  | refused (e : StoreError) : Fetched bodies (some (.error e)) (some (.error e))
  | found {body body'} (etag : Option String) (hb : bodies body body') :
    Fetched bodies (some (.ok ⟨body, etag⟩)) (some (.ok ⟨body', etag⟩))

theorem Paired.object_cases (h : Paired location bodies s t) :
    (s.store.objects location = none ∧ t.store.objects location = none) ∨
      ∃ body body' etag, s.store.objects location = some (body, etag) ∧
        t.store.objects location = some (body', etag) ∧ bodies body body' := by
  have object := h.object
  generalize s.store.objects location = x, t.store.objects location = y at object ⊢
  cases object with
  | none => exact .inl ⟨rfl, rfl⟩
  | @some x y hb =>
    obtain ⟨body, etag⟩ := x
    obtain ⟨body', etag'⟩ := y
    obtain ⟨hb, rfl⟩ := hb
    exact .inr ⟨body, body', etag, rfl, rfl, hb⟩

theorem Paired.etag?_eq (h : Paired location bodies s t) :
    s.store.etag? location = t.store.etag? location := by
  unfold MemoryStore.etag?
  rcases h.object_cases with ⟨hs, ht⟩ | ⟨_, _, etag, hs, ht, -⟩
  · rw [hs, ht]
  · rw [hs, ht]
    rfl

theorem Paired.body?_rel (h : Paired location bodies s t) :
    Option.Rel bodies (s.store.body? location) (t.store.body? location) := by
  unfold MemoryStore.body?
  rcases h.object_cases with ⟨hs, ht⟩ | ⟨_, _, etag, hs, ht, hb⟩
  · rw [hs, ht]
    exact .none
  · rw [hs, ht]
    exact .some hb

theorem Paired.head (h : Paired location bodies s t) (fault : Option HeadFault) :
    (Scripted.head fault location s).1 = (Scripted.head fault location t).1 ∧
      Paired location bodies (Scripted.head fault location s).2
        (Scripted.head fault location t).2 := by
  have same : s.store.head location = t.store.head location := by
    unfold MemoryStore.head
    rcases h.object_cases with ⟨hs, ht⟩ | ⟨body, body', etag, hs, ht, -⟩
    · rw [hs, ht]
    · rw [hs, ht]
      rfl
  unfold Scripted.head
  split
  · exact ⟨rfl, h.record _⟩
  · exact ⟨rfl, h.record _⟩
  · exact ⟨congrArg some same, h.record _⟩

theorem Paired.draw (h : Paired location bodies s t) (count : Nat) :
    (Scripted.draw count s).1 = (Scripted.draw count t).1 ∧
      Paired location bodies (Scripted.draw count s).2 (Scripted.draw count t).2 := by
  have drawn : (s.drawn ++ [count]).length = (t.drawn ++ [count]).length := by
    simp [h.drawn]
  unfold Scripted.draw
  rw [h.prepared, h.drawn]
  cases t.prepared with
  | nil => exact ⟨rfl, rfl, drawn, h.calls, h.version, h.object⟩
  | cons item prepared => exact ⟨rfl, rfl, drawn, h.calls, h.version, h.object⟩

theorem Paired.get (h : Paired location bodies s t) (refl : ∀ body, bodies body body)
    (fault : Option GetFault) :
    Fetched bodies (Scripted.get fault location s).1 (Scripted.get fault location t).1 ∧
      Paired location bodies (Scripted.get fault location s).2
        (Scripted.get fault location t).2 := by
  have recorded := h.record (.get location)
  have read : ∀ u : Scripted, (u.record (.get location)).store = u.store := fun u => rfl
  rcases h.object_cases with ⟨hs, ht⟩ | ⟨body, body', etag, hs, ht, hb⟩
  · unfold Scripted.get MemoryStore.get
    simp only [read, hs, ht]
    split
    · exact ⟨.refused _, recorded⟩
    · exact ⟨.cutOff, recorded⟩
    · exact ⟨.refused _, recorded⟩
    · exact ⟨.refused _, recorded⟩
    · exact ⟨.refused _, recorded⟩
  · unfold Scripted.get MemoryStore.get
    simp only [read, hs, ht]
    split
    · exact ⟨.refused _, recorded⟩
    · exact ⟨.cutOff, recorded⟩
    · exact ⟨.found none hb, recorded⟩
    · exact ⟨.found (some etag) hb, recorded.insert (refl _)⟩
    · exact ⟨.found (some etag) hb, recorded⟩

theorem Paired.put (h : Paired location bodies s t) {body body' : Bytes} (hb : bodies body body')
    (ifMatch : Option String) (fault : Option PutFault) :
    (Scripted.put fault location body ifMatch s).1 =
      (Scripted.put fault location body' ifMatch t).1 ∧
      Paired location bodies (Scripted.put fault location body ifMatch s).2
        (Scripted.put fault location body' ifMatch t).2 := by
  have recorded := h.record (.put location ifMatch)
  have read : ∀ u : Scripted, (u.record (.put location ifMatch)).store = u.store := fun u => rfl
  have same : s.store.permits location ifMatch = t.store.permits location ifMatch := by
    unfold MemoryStore.permits
    rcases h.object_cases with ⟨hs, ht⟩ | ⟨_, _, etag, hs, ht, -⟩
    · rw [hs, ht]
    · rw [hs, ht]
  unfold Scripted.put MemoryStore.put
  simp only [read, same, h.version]
  rcases t.store.permits location ifMatch with e | ⟨⟩
  · split
    · exact ⟨rfl, recorded⟩
    · exact ⟨rfl, recorded⟩
    · exact ⟨rfl, recorded⟩
    · exact ⟨rfl, recorded⟩
  · split
    · exact ⟨rfl, recorded⟩
    · exact ⟨rfl, recorded⟩
    · exact ⟨rfl, recorded.insert hb⟩
    · exact ⟨rfl, recorded.insert hb⟩

end Scripted

/-- Matching programs, run from paired states with the same faults, end alike in paired states. -/
theorem Program.Matches.run {α β : Type} {location : Location} {bodies : Bytes → Bytes → Prop}
    {values : α → β → Prop} {p : Program α} {q : Program β}
    (h : Matches location bodies values p q) (refl : ∀ body, bodies body body) (faults : Faults)
    {s t : Scripted} (paired : s.Paired location bodies t) :
    let left := p.run (Scripted.backend faults) s
    let right := q.run (Scripted.backend faults) t
    Option.Rel values left.value right.value ∧ left.events = right.events ∧
      left.state.Paired location bodies right.state := by
  -- Each call finds paired states, so it is answered alike and leaves paired states.
  induction h generalizing s t with
  | done hv => exact ⟨.some hv, rfl, paired⟩
  | head _ ih =>
    obtain ⟨same, paired⟩ := paired.head faults.head
    have hb : ∀ u, (Scripted.backend faults).head location u =
      Scripted.head faults.head location u := fun _ => rfl
    simp only [Program.run, hb]
    generalize Scripted.head faults.head location s = x,
      Scripted.head faults.head location t = y at same paired ⊢
    obtain ⟨answer, s'⟩ := x
    obtain ⟨answer', t'⟩ := y
    obtain rfl : answer = answer' := same
    cases answer with
    | none => exact ⟨.none, rfl, paired⟩
    | some answer => exact ih answer paired
  | get _ _ refused fetched =>
    obtain ⟨same, paired⟩ := paired.get refl faults.get
    have hb : ∀ u, (Scripted.backend faults).get location u =
      Scripted.get faults.get location u := fun _ => rfl
    simp only [Program.run, hb]
    generalize Scripted.get faults.get location s = x,
      Scripted.get faults.get location t = y at same paired ⊢
    obtain ⟨answer, s'⟩ := x
    obtain ⟨answer', t'⟩ := y
    cases same with
    | cutOff => exact ⟨.none, rfl, paired⟩
    | refused e => exact refused e paired
    | found etag hb => exact fetched _ _ etag hb paired
  | @put body body' ifMatch _ _ related _ ih =>
    obtain ⟨same, paired⟩ := paired.put related ifMatch faults.put
    have hb : ∀ b u, (Scripted.backend faults).put location b ifMatch u =
      Scripted.put faults.put location b ifMatch u := fun _ _ => rfl
    simp only [Program.run, hb]
    generalize Scripted.put faults.put location body ifMatch s = x,
      Scripted.put faults.put location body' ifMatch t = y at same paired ⊢
    obtain ⟨answer, s'⟩ := x
    obtain ⟨answer', t'⟩ := y
    obtain rfl : answer = answer' := same
    cases answer with
    | none => exact ⟨.none, rfl, paired⟩
    | some answer => exact ih answer paired
  | @draw count _ _ _ ih =>
    obtain ⟨same, paired⟩ := paired.draw count
    have hb : ∀ u, (Scripted.backend faults).draw count u = Scripted.draw count u := fun _ => rfl
    simp only [Program.run, hb]
    generalize Scripted.draw count s = x,
      Scripted.draw count t = y at same paired ⊢
    obtain ⟨answer, s'⟩ := x
    obtain ⟨answer', t'⟩ := y
    obtain rfl : answer = answer' := same
    exact ih answer paired
  | log _ ih =>
    obtain ⟨hv, he, paired⟩ := ih paired
    exact ⟨hv, congrArg (List.cons _) he, paired⟩

def Exchange.drawn? : Exchange → Option (Nat × Except IvError Bytes)
  | draw count answer => some (count, answer)
  | _ => none

theorem Program.Matches.draws {α β : Type} {location : Location} {bodies : Bytes → Bytes → Prop}
    {values : α → β → Prop} {p : Program α} {q : Program β}
    (h : Matches location bodies values p q) (refl : ∀ body, bodies body body) (faults : Faults)
    {s t : Scripted} (paired : s.Paired location bodies t) :
    (p.exchanges (Scripted.backend faults) s).filterMap Exchange.drawn? =
      (q.exchanges (Scripted.backend faults) t).filterMap Exchange.drawn? := by
  induction h generalizing s t with
  | done hv => rfl
  | head _ ih =>
    obtain ⟨same, paired⟩ := paired.head faults.head
    simp only [Program.exchanges, Scripted.backend]
    generalize Scripted.head faults.head location s = x,
      Scripted.head faults.head location t = y at same paired ⊢
    obtain ⟨answer, s'⟩ := x
    obtain ⟨answer', t'⟩ := y
    obtain rfl : answer = answer' := same
    cases answer with
    | none => rfl
    | some answer => exact ih answer paired
  | get _ _ refused fetched =>
    obtain ⟨same, paired⟩ := paired.get refl faults.get
    simp only [Program.exchanges, Scripted.backend]
    generalize Scripted.get faults.get location s = x,
      Scripted.get faults.get location t = y at same paired ⊢
    obtain ⟨answer, s'⟩ := x
    obtain ⟨answer', t'⟩ := y
    cases same with
    | cutOff => rfl
    | refused e => exact refused e paired
    | found etag hb => exact fetched _ _ etag hb paired
  | @put body body' ifMatch _ _ related _ ih =>
    obtain ⟨same, paired⟩ := paired.put related ifMatch faults.put
    simp only [Program.exchanges, Scripted.backend]
    generalize Scripted.put faults.put location body ifMatch s = x,
      Scripted.put faults.put location body' ifMatch t = y at same paired ⊢
    obtain ⟨answer, s'⟩ := x
    obtain ⟨answer', t'⟩ := y
    obtain rfl : answer = answer' := same
    cases answer with
    | none => rfl
    | some answer => exact ih answer paired
  | @draw count _ _ _ ih =>
    obtain ⟨same, paired⟩ := paired.draw count
    have later := ih (Scripted.draw count s).1 paired
    rw [same] at later
    simp only [Program.exchanges, Scripted.backend, List.filterMap_cons, Exchange.drawn?]
    rw [same]
    exact congrArg (List.cons _) later
  | log _ ih => exact ih paired

end AccountVault
