import AccountVault.Json.Number

/-!
# Accounts and the document that holds them

An account is a type, a key and a password, which is missing once the account has been redacted. The
document maps account ids to accounts. It is kept as a list in strictly increasing order of the ids,
so two documents with the same entries are the same list and are written the same way.
-/

namespace AccountVault

structure Account where
  accountType : Json.Number
  apiKey : String
  apiPassword : Option String
  deriving DecidableEq

def Account.redacted (a : Account) : Account := { a with apiPassword := none }

abbrev Entry := String × Account

structure Document where
  entries : List Entry
  ordered : entries.Pairwise fun x y => x.1 < y.1

namespace Document

@[ext] theorem ext {d e : Document} (h : d.entries = e.entries) : d = e := by
  cases d; cases e; cases h; rfl

instance : DecidableEq Document := fun d e =>
  if h : d.entries = e.entries then isTrue (Document.ext h)
  else isFalse fun same => h (congrArg entries same)

def empty : Document := ⟨[], .nil⟩

def insertEntry (id : String) (a : Account) : List Entry → List Entry
  | [] => [(id, a)]
  | x :: rest =>
    if id < x.1 then (id, a) :: x :: rest
    else if id = x.1 then (id, a) :: rest
    else x :: insertEntry id a rest

theorem mem_insertEntry {id : String} {a : Account} {y : Entry} {entries : List Entry}
    (h : y ∈ insertEntry id a entries) : y.1 = id ∨ y ∈ entries := by
  induction entries with
  | nil => simp_all [insertEntry]
  | cons x rest ih =>
    unfold insertEntry at h
    split at h
    · simp_all
      rcases h with h | h <;> simp_all
    · split at h
      · simp_all
        rcases h with h | h <;> simp_all
      · simp at h
        rcases h with h | h
        · simp_all
        · rcases ih h with h | h <;> simp_all

theorem ordered_insertEntry (id : String) (a : Account) {entries : List Entry}
    (h : entries.Pairwise fun x y => x.1 < y.1) :
    (insertEntry id a entries).Pairwise fun x y => x.1 < y.1 := by
  induction entries with
  | nil => simp [insertEntry]
  | cons x rest ih =>
    have tail := (List.pairwise_cons.1 h).2
    have above := (List.pairwise_cons.1 h).1
    unfold insertEntry
    split
    · rename_i before
      refine List.pairwise_cons.2 ⟨fun y hy => ?_, h⟩
      rcases List.mem_cons.1 hy with rfl | hy
      · exact before
      · exact String.lt_trans before (above y hy)
    · split
      · rename_i same
        refine List.pairwise_cons.2 ⟨fun y hy => ?_, tail⟩
        exact same ▸ above y hy
      · rename_i notBefore notSame
        refine List.pairwise_cons.2 ⟨fun y hy => ?_, ih tail⟩
        rcases mem_insertEntry hy with hy | hy
        · exact hy ▸ Std.lt_of_le_of_ne (String.not_lt.1 notBefore) (Ne.symm notSame)
        · exact above y hy

def insert (d : Document) (id : String) (a : Account) : Document :=
  ⟨insertEntry id a d.entries, ordered_insertEntry id a d.ordered⟩

def erase (d : Document) (id : String) : Document :=
  ⟨d.entries.filter (·.1 ≠ id), d.ordered.sublist List.filter_sublist⟩

def get? (d : Document) (id : String) : Option Account :=
  (d.entries.find? (·.1 = id)).map (·.2)

def contains (d : Document) (id : String) : Bool := (d.get? id).isSome

def size (d : Document) : Nat := d.entries.length

def isEmpty (d : Document) : Bool := d.entries.isEmpty

def single (id : String) (a : Account) : Document := ⟨[(id, a)], by simp⟩

def redacted (d : Document) : Document :=
  ⟨d.entries.map fun x => (x.1, x.2.redacted), by
    simpa [List.pairwise_map] using d.ordered⟩

end Document

end AccountVault
