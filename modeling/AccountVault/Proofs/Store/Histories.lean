import Mathlib
import AccountVault.Proofs.Store.Versions

/-!
# Histories of the store in memory

A history is a finite list of writes to any locations, with or without a condition. Each write that
is not refused takes the next version, so the tags that a history issues are those of consecutive
versions, and an object carries the last one that was issued for its location. A reader's tag is
older than every tag issued after the reading. So a write on the condition of that tag goes through
exactly if nothing was written to the location in between, also if the body has been restored
meanwhile.
-/

namespace AccountVault.MemoryStore

inductive Write where
  | insert (location : Location) (body : Bytes)
  | insertDocument (location : Location) (document : Document)
  | put (location : Location) (body : Bytes) (ifMatch : Option String)

namespace Write

def location : Write → Location
  | insert location _ => location
  | insertDocument location _ => location
  | put location _ _ => location

def next (store : MemoryStore) : Write → MemoryStore
  | insert location body => store.insert location body
  | insertDocument location document => store.insertDocument location document
  | put location body ifMatch => (store.put location body ifMatch).2

def issued? (store : MemoryStore) : Write → Option String
  | insert location body => (store.insert location body).etag? location
  | insertDocument location document => (store.insertDocument location document).etag? location
  | put location body ifMatch =>
    match (store.put location body ifMatch).1 with
    | .ok tag => tag
    | .error _ => none

end Write

def after (store : MemoryStore) (history : List Write) : MemoryStore :=
  history.foldl Write.next store

def issues (store : MemoryStore) : List Write → List (Location × String)
  | [] => []
  | w :: history =>
    ((w.issued? store).map (w.location, ·)).toList ++ issues (w.next store) history

def lastIssued? (location : Location) (issued : List (Location × String)) : Option String :=
  ((issued.filter (·.1 = location)).getLast?).map Prod.snd

variable {store : MemoryStore} {location : Location} {history : List Write}

theorem Write.cases (w : Write) (store : MemoryStore) :
    (w.issued? store = none ∧ w.next store = store) ∨
      ∃ body, w.issued? store = some (tag (store.version + 1)) ∧
        w.next store = store.insert w.location body := by
  cases w with
  | insert location body =>
    exact .inr ⟨body, by simp [issued?, etag?], rfl⟩
  | insertDocument location document =>
    exact .inr ⟨document.write, by simp [issued?, etag?, MemoryStore.insertDocument], rfl⟩
  | put location body ifMatch =>
    rcases put_cases store location body ifMatch with ⟨-, written⟩ | ⟨e, -, refused⟩
    · exact .inr ⟨body, by simp [issued?, written], by simp [next, written, Write.location]⟩
    · exact .inl ⟨by simp [issued?, refused], by simp [next, refused]⟩

theorem etag?_insert (body : Bytes) (place : Location) :
    (store.insert location body).etag? place =
      if location = place then some (tag (store.version + 1)) else store.etag? place := by
  by_cases same : location = place
  · subst same
    simp [etag?]
  · rw [if_neg same, etag?, etag?, objects_insert_of_ne (Ne.symm same)]

theorem Issued.after (h : store.Issued) : (store.after history).Issued := by
  induction history generalizing store with
  | nil => exact h
  | cons w history ih =>
    rcases w.cases store with ⟨-, same⟩ | ⟨body, -, written⟩
    · exact ih (by rwa [same])
    · exact ih (by rw [written]; exact h.insert)

theorem version_after : (store.after history).version =
    store.version + (store.issues history).length := by
  induction history generalizing store with
  | nil => rfl
  | cons w history ih =>
    have rest := @ih (w.next store)
    rw [after, List.foldl_cons, ← after, rest, issues]
    rcases w.cases store with ⟨none, same⟩ | ⟨body, issued, written⟩
    · simp [none, same]
    · simp only [issued, written, insert, Option.map_some, Option.toList_some, List.length_append,
        List.length_singleton]
      omega

theorem map_snd_issues : (store.issues history).map Prod.snd =
    (List.range' (store.version + 1) (store.issues history).length).map tag := by
  induction history generalizing store with
  | nil => rfl
  | cons w history ih =>
    have rest := @ih (w.next store)
    rw [issues]
    rcases w.cases store with ⟨none, same⟩ | ⟨body, issued, written⟩
    · simpa [none, same] using rest
    · rw [issued, Option.map_some, Option.toList_some, List.singleton_append, List.map_cons,
        List.length_cons, List.range'_succ, List.map_cons, rest]
      simp only [written, insert]

theorem nodup_issues : ((store.issues history).map Prod.snd).Nodup := by
  rw [map_snd_issues]
  exact (List.nodup_range').map tag_injective

theorem exists_version_of_mem_issues {issue : Location × String}
    (mem : issue ∈ store.issues history) : ∃ version > store.version, issue.2 = tag version := by
  have listed := List.mem_map_of_mem (f := Prod.snd) mem
  rw [map_snd_issues] at listed
  obtain ⟨version, inside, same⟩ := List.mem_map.1 listed
  have bounds := List.mem_range'_1.1 inside
  exact ⟨version, by omega, same.symm⟩

theorem etag?_after : (store.after history).etag? location =
    (lastIssued? location (store.issues history)).or (store.etag? location) := by
  induction history generalizing store with
  | nil => rfl
  | cons w history ih =>
    have rest := @ih (w.next store)
    rw [after, List.foldl_cons, ← after, rest, issues]
    rcases w.cases store with ⟨none, same⟩ | ⟨body, issued, written⟩
    · simp [none, same]
    · rw [issued, written, etag?_insert]
      by_cases here : w.location = location
      · simp only [lastIssued?, here, if_true, Option.map_some, Option.toList_some,
          List.singleton_append, List.filter_cons, decide_true, List.getLast?_cons]
        cases ((store.insert location body).issues history |>.filter (·.1 = location)).getLast? <;>
          rfl
      · simp [lastIssued?, here]

theorem lastIssued?_eq_none_iff {issued : List (Location × String)} :
    lastIssued? location issued = none ↔ ∀ issue ∈ issued, issue.1 ≠ location := by
  simp [lastIssued?]

theorem mem_of_lastIssued? {issued : List (Location × String)} {etag : String}
    (h : lastIssued? location issued = some etag) : (location, etag) ∈ issued := by
  obtain ⟨⟨place, _⟩, last, rfl⟩ := Option.map_eq_some_iff.1 h
  obtain ⟨mem, here⟩ := List.mem_filter.1 (List.mem_of_getLast? last)
  obtain rfl : place = location := by simpa using here
  exact mem

theorem put_of_etag?_eq {etag : String} (current : store.etag? location = some etag)
    (body : Bytes) : store.put location body (some etag) =
      (.ok (some (tag (store.version + 1))), store.insert location body) := by
  obtain ⟨⟨old, _⟩, found, rfl⟩ := Option.map_eq_some_iff.1 current
  simp [put, permits, found]

theorem put_of_etag?_ne {current etag : String} (carried : store.etag? location = some current)
    (other : current ≠ etag) (body : Bytes) :
    store.put location body (some etag) = (.error .preconditionFailed, store) := by
  obtain ⟨⟨old, _⟩, found, rfl⟩ := Option.map_eq_some_iff.1 carried
  simp only at other
  simp [put, permits, found, other]

theorem put_after {etag : String} (dated : store.Issued)
    (current : store.etag? location = some etag) (body : Bytes) :
    let now := store.after history
    ((∀ issue ∈ store.issues history, issue.1 ≠ location) → now.put location body (some etag) =
        (.ok (some (tag (now.version + 1))), now.insert location body)) ∧
      (¬(∀ issue ∈ store.issues history, issue.1 ≠ location) →
        now.put location body (some etag) = (.error .preconditionFailed, now)) := by
  intro now
  have carried : now.etag? location = _ := etag?_after
  rw [← lastIssued?_eq_none_iff]
  refine ⟨fun untouched => ?_, fun touched => ?_⟩
  · rw [untouched, Option.none_or, current] at carried
    exact put_of_etag?_eq carried body
  · obtain ⟨newer, last⟩ := Option.ne_none_iff_exists'.1 touched
    rw [last, Option.some_or] at carried
    apply put_of_etag?_ne carried
    rintro rfl
    obtain ⟨⟨old, _⟩, found, rfl⟩ := Option.map_eq_some_iff.1 current
    obtain ⟨version, reached, same⟩ := dated _ _ _ found
    obtain ⟨version', new, same'⟩ := exists_version_of_mem_issues (mem_of_lastIssued? last)
    have := tag_injective (same.symm.trans same')
    omega

/-- The counter of a store is the number of writes that went through, the tags they issued are all
different, and an object carries the last one for its location. A refused write changes nothing.
With the tag that a reading gave, a later write goes through exactly if nothing was written to the
location since, and is refused as overtaken otherwise. -/
theorem tags_never_reused (history : List Write) :
    let store := empty.after history
    let issued := empty.issues history
    store.version = issued.length ∧ (issued.map Prod.snd).Nodup ∧
      (∀ location, store.etag? location = lastIssued? location issued) ∧
      (∀ location body ifMatch e, (store.put location body ifMatch).1 = .error e →
        (store.put location body ifMatch).2 = store) ∧
      ∀ location object, store.get location = .ok object →
        ∃ etag, object.etag = some etag ∧ ∀ (later : List Write) (body : Bytes),
          let now := store.after later
          let answer := now.put location body (some etag)
          ((∃ given, answer.1 = .ok given) ↔ ∀ issue ∈ store.issues later, issue.1 ≠ location) ∧
            ((∃ issue ∈ store.issues later, issue.1 = location) →
              answer = (.error .preconditionFailed, now)) := by
  intro store issued
  refine ⟨?_, nodup_issues, fun location => ?_, fun location body ifMatch e failed => ?_,
    fun location object fetched => ?_⟩
  · exact version_after.trans (Nat.zero_add _)
  · exact etag?_after.trans (Option.or_none ..)
  · rcases put_cases store location body ifMatch with ⟨-, written⟩ | ⟨e, -, refused⟩
    · rw [written] at failed
      cases failed
    · rw [refused]
  · unfold MemoryStore.get at fetched
    split at fetched
    · rename_i held etag found
      cases fetched
      have current : store.etag? location = some etag := by simp [etag?, found]
      refine ⟨etag, rfl, fun later body => ?_⟩
      obtain ⟨untouched, touched⟩ := @put_after _ _ later _ issued_empty.after current body
      refine ⟨⟨?_, fun nothing => ⟨_, congrArg Prod.fst (untouched nothing)⟩⟩, ?_⟩
      · rintro ⟨given, accepted⟩
        by_contra written
        rw [touched written] at accepted
        cases accepted
      · rintro ⟨issue, mem, here⟩
        exact touched fun nothing => nothing issue mem here
    · cases fetched

theorem tags_never_reused_restored :
    let place : Location := ⟨"bucket", "key"⟩
    let other : Location := ⟨"bucket", "other"⟩
    let store := empty.after [.insert place [0x61]]
    let kept := store.after [.insert other [0x62], .put place [0x63] (some (tag 7))]
    let restored := store.after [.put place [0x62] none, .insert place [0x61]]
    store.get place = .ok ⟨[0x61], some (tag 1)⟩ ∧
      (∃ given, (kept.put place [] (some (tag 1))).1 = .ok given) ∧
      restored.get place = .ok ⟨[0x61], some (tag 3)⟩ ∧
      restored.put place [] (some (tag 1)) = (.error .preconditionFailed, restored) := by
  intro place other store kept restored
  obtain ⟨-, -, -, -, conditional⟩ := tags_never_reused [.insert place [0x61]]
  have fetched : store.get place = .ok ⟨[0x61], some (tag 1)⟩ := rfl
  obtain ⟨etag, same, later⟩ := conditional place _ fetched
  obtain rfl := Option.some.inj same
  refine ⟨fetched, (later _ []).1.2 ?_, rfl, (later _ []).2 ⟨(place, tag 2), ?_, rfl⟩⟩
  · decide +kernel
  · decide +kernel

end AccountVault.MemoryStore
