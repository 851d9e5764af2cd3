import Mathlib
import AccountVault.Account.Format
import AccountVault.Text.Blank
import AccountVault.Proofs.Json.Records

/-!
# Written documents are read back

A document whose account types are integers of sixty-four bits is read back as it was. For any other
document the reading may round a number, or fail at one that no text can hold, but when it succeeds,
the ids, the keys and the passwords are those that were written.
-/

namespace AccountVault

open Json

namespace Account

def afterType (a : Account) (rest : Bytes) : Bytes :=
  0x2c :: (writeText "apiKey" ++ 0x3a :: (writeText a.apiKey ++
    match a.apiPassword with
    | none => 0x7d :: rest
    | some password =>
      0x2c :: (writeText "apiPassword" ++ 0x3a :: (writeText password ++ 0x7d :: rest))))

theorem write_append (a : Account) (rest : Bytes) :
    a.write ++ rest = 0x7b :: (writeText "accountType" ++
      0x3a :: (writeNumber a.accountType ++ a.afterType rest)) := by
  obtain ⟨accountType, apiKey, _ | password⟩ := a <;>
    simp [write, toValue, optionalField, Value.write, Value.writeMembers, afterType]

theorem members_afterType (a : Account) (n : Json.Number) (rounds : Nat) (rest : Bytes) :
    Field.members Draft.field (rounds + 3) false { accountType := some n } (a.afterType rest) =
      .ok (⟨some n, some a.apiKey, a.apiPassword.map some⟩, 0x7d :: rest) := by
  have key : ∀ after, Draft.field { accountType := some n } "apiKey"
      (0x3a :: (writeText a.apiKey ++ after)) = .ok (⟨some n, some a.apiKey, none⟩, after) := by
    intro after
    simp [Draft.field, Field.once_absent, Field.value_cons, Field.text_writeText, Field.lift]
  rw [afterType, Field.members_next, key, ok_bind]
  cases a.apiPassword with
  | none => exact Field.members_end _ _ _ _
  | some password =>
    have secret : Draft.field ⟨some n, some a.apiKey, none⟩ "apiPassword"
        (0x3a :: (writeText password ++ 0x7d :: rest)) =
          .ok (⟨some n, some a.apiKey, some (some password)⟩, 0x7d :: rest) := by
      simp [Draft.field, Field.once_absent, Field.value_cons, Field.optional_writeText, Field.lift]
    refine (Field.members_next (rounds + 1) _ "apiPassword" _).trans ?_
    rw [secret, ok_bind]
    exact Field.members_end _ _ _ _

theorem read_write_eq (a : Account) (rest : Bytes) :
    ∃ rounds, Account.read (a.write ++ rest) =
      match Field.number (writeNumber a.accountType ++ a.afterType rest) with
      | .error fault => .error fault
      | .ok (n, after) => Field.enclosed Scan.recordEnd do
        let (d, rest) ← Field.members Draft.field (rounds + 3) false { accountType := some n } after
        let a ← d.finish rest
        return (a, rest) := by
  have long : ∃ rounds, (writeText "accountType" ++
      0x3a :: (writeNumber a.accountType ++ a.afterType rest)).length = rounds + 3 := by
    refine ⟨_ - 3, (Nat.sub_add_cancel ?_).symm⟩
    rw [writeText_append]
    simp [afterType]
    omega
  obtain ⟨rounds, hr⟩ := long
  refine ⟨rounds, ?_⟩
  rw [write_append, Account.read, Field.structured, Field.leading, skipBlank_cons (by decide)]
  simp only [readRecord, Field.allMembers, hr]
  rw [Field.members_first]
  simp [Draft.field, Field.once_absent, Field.value_cons]
  rcases Field.number (writeNumber a.accountType ++ a.afterType rest) with fault | ⟨n, after⟩
  · rfl
  · rfl

theorem read_write_of_number {a : Account} {n : Json.Number} {rest : Bytes}
    (h : Field.number (writeNumber a.accountType ++ a.afterType rest) = .ok (n, a.afterType rest)) :
    Account.read (a.write ++ rest) = .ok ({ a with accountType := n }, rest) := by
  obtain ⟨rounds, hr⟩ := read_write_eq a rest
  rw [hr, h]
  simp only [members_afterType]
  obtain ⟨accountType, apiKey, _ | password⟩ := a <;>
    simp [Draft.finish, Field.required, Field.enclosed, Scan.recordEnd_cons]

theorem read_write {a : Account} (h : a.accountType.InRange) (rest : Bytes) :
    Account.read (a.write ++ rest) = .ok (a, rest) :=
  read_write_of_number (Field.number_writeNumber h (Scan.endsNumber_cons (by decide)))

theorem eq_of_read_write {a a' : Account} {rest rest' : Bytes}
    (h : Account.read (a.write ++ rest) = .ok (a', rest')) :
    a'.apiKey = a.apiKey ∧ a'.apiPassword = a.apiPassword ∧ rest' = rest := by
  obtain ⟨rounds, hr⟩ := read_write_eq a rest
  rcases hn : Field.number (writeNumber a.accountType ++ a.afterType rest) with fault | ⟨n, after⟩
  · rw [hr, hn] at h
    cases h
  · obtain ⟨left, rfl, hl⟩ := Field.number_writeNumber_rest hn
    cases left with
    | nil =>
      rw [read_write_of_number hn] at h
      obtain ⟨rfl, rfl⟩ := Prod.mk.inj (Except.ok.inj h)
      exact ⟨rfl, rfl, rfl⟩
    | cons byte left =>
      -- A byte of a number that is left over is not the comma before the next member.
      obtain ⟨blank, comma, brace⟩ := (hl byte (by simp)).not_separator
      have stuck : ∃ fault, Scan.nextKey false (byte :: left ++ a.afterType rest) =
        .error fault := by
        rw [List.cons_append, Scan.nextKey, skipBlank_cons blank]
        simp [comma, brace]
      obtain ⟨fault, hf⟩ := stuck
      rw [hr, hn] at h
      change Field.enclosed _ (Field.members Draft.field (rounds + 3) false _
        (byte :: left ++ a.afterType rest) >>= _) = _ at h
      rw [Field.members, hf] at h
      cases h

end Account

namespace Document

def members (entries : List Entry) : List (String × Value) :=
  entries.map fun x => (x.1, x.2.toValue)

def withAccounts (f : Account → Account) (d : Document) : Document :=
  ⟨d.entries.map fun x => (x.1, f x.2), by simpa [List.pairwise_map] using d.ordered⟩

theorem write_append (d : Document) (rest : Bytes) :
    d.write ++ rest = 0x7b :: (Value.writeMembers (members d.entries) ++ 0x7d :: rest) := by
  simp [write, toValue, Value.write, members]

theorem insertEntry_of_lt {id : String} (a : Account) {entries : List Entry}
    (h : ∀ x ∈ entries, x.1 < id) : insertEntry id a entries = entries ++ [(id, a)] := by
  induction entries with
  | nil => rfl
  | cons x entries ih =>
    have below : x.1 < id := h x (by simp)
    rw [insertEntry, if_neg (lt_asymm below), if_neg (ne_of_gt below),
      ih fun y hy => h y (List.mem_cons_of_mem _ hy)]
    rfl

theorem field_write {d : Document} {id : String} {a a' : Account} {after rest : Bytes}
    (h : Account.read (a.write ++ after) = .ok (a', rest)) :
    field d id (0x3a :: (a.write ++ after)) = .ok (d.insert id a', rest) := by
  rw [field, Field.value_cons, h]
  rfl

theorem takes_members {f : Account → Account} {entries : List Entry}
    (read : ∀ x ∈ entries, ∀ after, Account.read (x.2.write ++ after) = .ok (f x.2, after))
    {d e : Document} (joined : e.entries = d.entries ++ entries.map fun x => (x.1, f x.2)) :
    Field.Takes field d (members entries) e := by
  induction entries generalizing d with
  | nil =>
    obtain rfl : e = d := Document.ext (by simpa using joined)
    exact .nil
  | cons x entries ih =>
    -- The ids that have been read are below those to come, so every entry goes to the end.
    have above : ∀ y ∈ d.entries, y.1 < x.1 := by
      intro y hy
      have ordered := e.ordered
      rw [joined] at ordered
      exact (List.pairwise_append.1 ordered).2.2 y hy (x.1, f x.2) (by simp)
    have added : (d.insert x.1 (f x.2)).entries = d.entries ++ [(x.1, f x.2)] :=
      insertEntry_of_lt (f x.2) above
    refine .cons (fun after _ => field_write (read x (by simp) after)) ?_
    refine ih (fun y hy => read y (List.mem_cons_of_mem _ hy)) ?_
    rw [added, joined]
    simp

theorem read_write_of {f : Account → Account} {d : Document}
    (read : ∀ x ∈ d.entries, ∀ after, Account.read (x.2.write ++ after) = .ok (f x.2, after))
    (rest : Bytes) : Document.read (d.write ++ rest) = .ok (d.withAccounts f, rest) := by
  have taken : Field.Takes field empty (members d.entries) (d.withAccounts f) :=
    takes_members read (by simp [empty, withAccounts])
  rw [write_append, Document.read, Field.leading, skipBlank_cons (by decide)]
  simp only [if_pos, taken.allMembers]
  simp [Field.enclosed, Scan.recordEnd_cons]

def InRange (d : Document) : Prop := ∀ x ∈ d.entries, x.2.accountType.InRange

theorem read_write {d : Document} (inRange : d.InRange) (rest : Bytes) :
    Document.read (d.write ++ rest) = .ok (d, rest) := by
  have read :=
    read_write_of (f := id) (fun x hx after => Account.read_write (inRange x hx) after) rest
  have same : d.withAccounts id = d := Document.ext (by simp [withAccounts])
  rwa [same] at read

theorem parse_write {d : Document} (inRange : d.InRange) :
    Document.parse d.write = .ok d :=
  readWhole_of_read (read_write inRange [])

def unnumbered (x : Entry) : String × String × Option String :=
  (x.1, x.2.apiKey, x.2.apiPassword)

theorem field_write_inv {d d' : Document} {x : Entry} {after rest : Bytes}
    (above : ∀ y ∈ d.entries, y.1 < x.1)
    (h : field d x.1 (0x3a :: (x.2.write ++ after)) = .ok (d', rest)) :
    d'.entries.map unnumbered = d.entries.map unnumbered ++ [unnumbered x] ∧ rest = after := by
  rcases read : Account.read (x.2.write ++ after) with fault | ⟨a, left⟩
  · rw [field, Field.value_cons, read] at h
    cases h
  · obtain ⟨key, password, rfl⟩ := Account.eq_of_read_write read
    rw [field_write read] at h
    obtain ⟨rfl, rfl⟩ := Prod.mk.inj (Except.ok.inj h)
    refine ⟨?_, rfl⟩
    simp [insert, insertEntry_of_lt a above, unnumbered, key, password]

theorem ids_of_unnumbered {xs ys : List Entry} (h : xs.map unnumbered = ys.map unnumbered) :
    xs.map Prod.fst = ys.map Prod.fst := by
  have first := congrArg (List.map Prod.fst) h
  simpa [Function.comp_def, unnumbered] using first

theorem ordered_of_unnumbered {xs ys : List Entry} (h : xs.map unnumbered = ys.map unnumbered)
    (ordered : ys.Pairwise fun x y => x.1 < y.1) : xs.Pairwise fun x y => x.1 < y.1 := by
  rw [← List.pairwise_map] at ordered ⊢
  rwa [ids_of_unnumbered h]

theorem members_further_inv {entries : List Entry} {d d' : Document} {rounds : Nat}
    {rest rest' : Bytes} (ordered : (d.entries ++ entries).Pairwise fun x y => x.1 < y.1)
    (h : Field.members field rounds false d (Value.further (members entries) rest) =
      .ok (d', rest')) :
    d'.entries.map unnumbered = (d.entries ++ entries).map unnumbered ∧ rest' = 0x7d :: rest := by
  induction entries generalizing d rounds with
  | nil =>
    cases rounds with
    | zero => cases h
    | succ rounds =>
      rw [members, List.map_nil, Value.further, Field.members_end] at h
      obtain ⟨rfl, rfl⟩ := Prod.mk.inj (Except.ok.inj h)
      simp
  | cons x entries ih =>
    cases rounds with
    | zero => cases h
    | succ rounds =>
      rw [members, List.map_cons, Value.further, Field.members_next] at h
      obtain ⟨⟨e, left⟩, read, others⟩ := exists_of_bind_eq_ok h
      have above : ∀ y ∈ d.entries, y.1 < x.1 := fun y hy =>
        (List.pairwise_append.1 ordered).2.2 y hy x (by simp)
      obtain ⟨added, rfl⟩ := field_write_inv above read
      have ordered' : (e.entries ++ entries).Pairwise fun x y => x.1 < y.1 :=
        ordered_of_unnumbered (by simp [added]) ordered
      obtain ⟨hd, hr⟩ := ih ordered' others
      exact ⟨by simp [hd, added], hr⟩

theorem eq_of_parse_write {d d' : Document} (h : Document.parse d.write = .ok d') :
    d'.entries.map unnumbered = d.entries.map unnumbered := by
  obtain ⟨rest, read⟩ := read_of_readWhole h
  have whole := write_append d []
  rw [List.append_nil] at whole
  rw [whole, Document.read, Field.leading, skipBlank_cons (by decide)] at read
  simp only [if_pos] at read
  obtain ⟨input, found⟩ := Field.exists_of_enclosed read
  obtain ⟨entries, ordered⟩ := d
  cases entries with
  | nil =>
    have none := found.symm.trans (Field.members_end _ true empty [])
    obtain ⟨rfl, -⟩ := Prod.mk.inj (Except.ok.inj none)
    rfl
  | cons x entries =>
    rw [members, List.map_cons, Value.writeMembers_append, Field.allMembers, Field.members_first]
      at found
    obtain ⟨⟨e, left⟩, first, others⟩ := exists_of_bind_eq_ok found
    obtain ⟨added, rfl⟩ := field_write_inv (x := x) (by simp [empty]) first
    have ordered' : (e.entries ++ entries).Pairwise fun x y => x.1 < y.1 :=
      ordered_of_unnumbered (by simp [added, empty]) ordered
    obtain ⟨hd, -⟩ := members_further_inv ordered' others
    simp [hd, added, empty]

theorem not_isBlankBody_of_parse {body : Bytes} {d : Document}
    (h : Document.parse body = .ok d) : Blank.isBlankBody body = false := by
  obtain ⟨rest, read⟩ := read_of_readWhole h
  unfold Document.read Field.leading at read
  split at read
  · cases read
  · rename_i byte after start
    dsimp only at read
    split_ifs at read with brace
    subst brace
    have mem : 0x7b ∈ body := by
      refine (List.dropWhile_sublist Scan.isBlank).subset ?_
      change 0x7b ∈ Scan.skipBlank body
      simp [start]
    rw [Blank.isBlankBody, List.all_eq_false]
    exact ⟨0x7b, mem, by decide⟩

end Document

end AccountVault
