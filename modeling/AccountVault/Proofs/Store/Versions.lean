import Mathlib
import AccountVault.Store.Memory

/-!
# Tags and versions of the store in memory

A tag stands for one version of the store, and every write takes a new one. So a tag that some
reader holds is either gone from its location for good or still goes with the body that was read,
which is what a conditional write relies on.
-/

namespace AccountVault.MemoryStore

theorem tag_injective : Function.Injective tag := by
  intro m n h
  have same : toString m = toString n := by simpa [tag] using h
  exact Nat.repr_inj.1 same

def Issued (store : MemoryStore) : Prop :=
  ∀ location body etag, store.objects location = some (body, etag) →
    ∃ version ≤ store.version, etag = tag version

/-- The object was read at the location in an earlier state or in this one: if its tag is still the
current one, its body is too. -/
def Dates (store : MemoryStore) (location : Location) (object : StoredObject) : Prop :=
  ∀ etag, object.etag = some etag → (∃ version ≤ store.version, etag = tag version) ∧
    ∀ body, store.objects location = some (body, etag) → body = object.body

/-- A tag that was current at a location once and never will be again. -/
def Spent (store : MemoryStore) (location : Location) (etag : String) : Prop :=
  (∃ version ≤ store.version, etag = tag version) ∧
    ∀ body, store.objects location ≠ some (body, etag)

variable {store : MemoryStore} {location place : Location} {body : Bytes}

theorem issued_empty : empty.Issued := by
  intro location body etag h
  cases h

theorem Issued.insert (h : store.Issued) : (store.insert location body).Issued := by
  intro place body' etag found
  by_cases hp : place = location
  · subst hp
    rw [objects_insert_self] at found
    obtain ⟨-, rfl⟩ := Prod.mk.inj (Option.some.inj found)
    exact ⟨store.version + 1, le_refl _, rfl⟩
  · rw [objects_insert_of_ne hp] at found
    obtain ⟨version, hv, rfl⟩ := h _ _ _ found
    exact ⟨version, hv.trans (Nat.le_succ _), rfl⟩

theorem tag_ne_of_objects_insert {version : Nat} {body' : Bytes} (hv : version ≤ store.version)
    (found : (store.insert location body).objects place = some (body', tag version)) :
    store.objects place = some (body', tag version) := by
  by_cases hp : place = location
  · subst hp
    rw [objects_insert_self] at found
    have same := tag_injective (Prod.mk.inj (Option.some.inj found)).2
    omega
  · rwa [objects_insert_of_ne hp] at found

theorem Dates.insert {object : StoredObject} (h : store.Dates place object) :
    (store.insert location body).Dates place object := by
  intro etag he
  obtain ⟨⟨version, hv, rfl⟩, same⟩ := h etag he
  refine ⟨⟨version, hv.trans (Nat.le_succ _), rfl⟩, fun body' found => ?_⟩
  exact same body' (tag_ne_of_objects_insert hv found)

theorem Spent.insert {etag : String} (h : store.Spent place etag) :
    (store.insert location body).Spent place etag := by
  obtain ⟨⟨version, hv, rfl⟩, gone⟩ := h
  refine ⟨⟨version, hv.trans (Nat.le_succ _), rfl⟩, fun body' found => ?_⟩
  exact gone body' (tag_ne_of_objects_insert hv found)

theorem Issued.spent {etag : String} {body' : Bytes} (h : store.Issued)
    (current : store.objects location = some (body', etag)) :
    (store.insert location body).Spent location etag := by
  obtain ⟨version, hv, rfl⟩ := h _ _ _ current
  refine ⟨⟨version, hv.trans (Nat.le_succ _), rfl⟩, fun body' found => ?_⟩
  rw [objects_insert_self] at found
  have same := tag_injective (Prod.mk.inj (Option.some.inj found)).2
  omega

theorem Issued.dates_of_get (h : store.Issued) {object : StoredObject}
    (fetched : store.get location = .ok object) : store.Dates location object := by
  unfold MemoryStore.get at fetched
  split at fetched
  · rename_i body etag found
    cases fetched
    intro etag' he
    cases he
    refine ⟨h _ _ _ found, fun body' found' => ?_⟩
    rw [found] at found'
    exact (Prod.mk.inj (Option.some.inj found')).1.symm
  · cases fetched

theorem put_cases (store : MemoryStore) (location : Location) (body : Bytes)
    (ifMatch : Option String) :
    (store.permits location ifMatch = .ok () ∧ store.put location body ifMatch =
      (.ok (some (tag (store.version + 1))), store.insert location body)) ∨
    ∃ e, store.permits location ifMatch = .error e ∧
      store.put location body ifMatch = (.error e, store) := by
  unfold put
  cases h : store.permits location ifMatch with
  | ok _ => exact .inl ⟨rfl, rfl⟩
  | error e => exact .inr ⟨e, rfl, rfl⟩

theorem objects_of_permits {etag : String} (h : store.permits location (some etag) = .ok ()) :
    ∃ body, store.objects location = some (body, etag) := by
  simp only [permits] at h
  split at h
  · cases h
  · rename_i body current found
    split at h
    · rename_i same
      exact ⟨body, same ▸ found⟩
    · cases h

end AccountVault.MemoryStore
