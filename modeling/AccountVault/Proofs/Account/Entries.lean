import Mathlib
import AccountVault.Proofs.Account.RoundTrip

/-!
# Documents as maps

The entries of a document are found by their ids, and a document is what its entries are. The
operations on documents are those on maps, and those that a service makes keep what all account
types have in common, such as being integers of sixty-four bits.
-/

namespace AccountVault.Document

theorem find?_insertEntry (id id' : String) (a : Account) (entries : List Entry) :
    (insertEntry id a entries).find? (·.1 = id') =
      if id' = id then some (id, a) else entries.find? (·.1 = id') := by
  induction entries with
  | nil =>
    by_cases h : id' = id
    · simp [insertEntry, h]
    · simp [insertEntry, h, Ne.symm h]
  | cons x entries ih =>
    by_cases h : id' = id
    · subst h
      rw [if_pos rfl] at ih ⊢
      rw [insertEntry]
      split_ifs with before same
      · simp
      · simp
      · simpa [Ne.symm same] using ih
    · rw [if_neg h] at ih ⊢
      rw [insertEntry]
      split_ifs with before same
      · simp [Ne.symm h]
      · simp [Ne.symm h, ← same]
      · simp only [List.find?_cons, ih]

theorem get?_insert (d : Document) (id id' : String) (a : Account) :
    (d.insert id a).get? id' = if id' = id then some a else d.get? id' := by
  simp only [get?, insert, find?_insertEntry]
  split_ifs <;> rfl

theorem get?_erase (d : Document) (id id' : String) :
    (d.erase id).get? id' = if id' = id then none else d.get? id' := by
  simp only [get?, erase]
  by_cases h : id' = id
  · subst h
    have none : (d.entries.filter (·.1 ≠ id')).find? (·.1 = id') = none := by
      simp
    rw [none, if_pos rfl]
    rfl
  · rw [if_neg h, List.find?_filter]
    congr 2
    funext x
    by_cases hx : x.1 = id' <;> simp [hx, h]

theorem get?_withAccounts (f : Account → Account) (d : Document) (id : String) :
    (d.withAccounts f).get? id = (d.get? id).map f := by
  simp only [get?, withAccounts, List.find?_map, Option.map_map]
  rfl

theorem get?_redacted (d : Document) (id : String) :
    d.redacted.get? id = (d.get? id).map Account.redacted :=
  get?_withAccounts Account.redacted d id

theorem get?_single (id id' : String) (a : Account) :
    (single id a).get? id' = if id' = id then some a else none := by
  by_cases h : id = id'
  · simp [get?, single, h]
  · simp [get?, single, h, Ne.symm h]

theorem mem_entries_iff {d : Document} {id : String} {a : Account} :
    (id, a) ∈ d.entries ↔ d.get? id = some a := by
  constructor
  · intro h
    obtain ⟨before, after, split, fresh⟩ : ∃ before after, d.entries = before ++ (id, a) :: after ∧
        ∀ x ∈ before, x.1 ≠ id := by
      obtain ⟨before, after, split⟩ := List.append_of_mem h
      refine ⟨before, after, split, fun x hx => ?_⟩
      have ordered := d.ordered
      rw [split] at ordered
      exact ne_of_lt ((List.pairwise_append.1 ordered).2.2 x hx (id, a) (by simp))
    have none : before.find? (·.1 = id) = none := by simpa using fresh
    simp [get?, split, List.find?_append, none]
  · intro h
    obtain ⟨x, found, rfl⟩ := Option.map_eq_some_iff.1 h
    have same : x.1 = id := by simpa using List.find?_some found
    exact same ▸ List.mem_of_find?_eq_some found

theorem ext_get? {d e : Document} (h : ∀ id, d.get? id = e.get? id) : d = e := by
  have nodup : ∀ f : Document, f.entries.Nodup := fun f =>
    f.ordered.imp fun before same => absurd (congrArg Prod.fst same) (ne_of_lt before)
  have perm : d.entries.Perm e.entries := by
    refine (List.perm_ext_iff_of_nodup (nodup d) (nodup e)).2 fun x => ?_
    rw [mem_entries_iff, mem_entries_iff, h]
  refine Document.ext (perm.eq_of_pairwise ?_ d.ordered e.ordered)
  intro x y _ _ before after
  exact absurd after (lt_asymm before)

def Typed (p : Json.Number → Prop) (d : Document) : Prop := ∀ x ∈ d.entries, p x.2.accountType

theorem typed_iff {p : Json.Number → Prop} {d : Document} :
    d.Typed p ↔ ∀ id a, d.get? id = some a → p a.accountType := by
  simp only [Typed, Prod.forall, mem_entries_iff]

theorem Typed.insert {p : Json.Number → Prop} {d : Document} (h : d.Typed p) (id : String)
    {a : Account} (ha : p a.accountType) : (d.insert id a).Typed p := by
  rw [typed_iff] at h ⊢
  intro id' a' found
  rw [get?_insert] at found
  split_ifs at found with same
  · exact Option.some.inj found ▸ ha
  · exact h id' a' found

theorem Typed.erase {p : Json.Number → Prop} {d : Document} (h : d.Typed p) (id : String) :
    (d.erase id).Typed p :=
  fun x hx => h x (List.mem_of_mem_filter hx)

theorem InRange.insert {d : Document} (h : d.InRange) (id : String) {a : Account}
    (ha : a.accountType.InRange) : (d.insert id a).InRange :=
  Typed.insert h id ha

theorem InRange.erase {d : Document} (h : d.InRange) (id : String) : (d.erase id).InRange :=
  Typed.erase h id

theorem exists_of_parse_write {d e : Document} (parsed : Document.parse d.write = .ok e)
    {id : String} {a : Account} (found : e.get? id = some a) :
    ∃ b, d.get? id = some b ∧ b.apiPassword = a.apiPassword := by
  have mem : unnumbered (id, a) ∈ d.entries.map unnumbered := by
    rw [← eq_of_parse_write parsed]
    exact List.mem_map_of_mem (mem_entries_iff.2 found)
  obtain ⟨⟨id', b⟩, hb, same⟩ := List.mem_map.1 mem
  obtain ⟨rfl, -, password⟩ : id' = id ∧ b.apiKey = a.apiKey ∧ b.apiPassword = a.apiPassword := by
    simpa [unnumbered] using same
  exact ⟨b, mem_entries_iff.1 hb, password⟩

end AccountVault.Document
