import Mathlib
import AccountVault.Proofs.Json.Readable
import AccountVault.Proofs.Session.Failures

/-!
# What a write does to the other accounts

A write stores the whole document, so the accounts that it is not about are read and written again.
Their keys and passwords stay what they were, and so does an account type that is an integer or a
real number of few digits. Any other real number is read from its shortest decimal in more than one
rounding, and what is stored after the write may be another number than before. A document stays a
document: the decimal of a finite number is never read as one that is too large.
-/

namespace AccountVault

open Json

namespace Account

def reread (a : Account) : Account := { a with accountType := a.accountType.reread }

theorem read_write_reread {a : Account} (h : a.accountType.Readable) (rest : Bytes) :
    Account.read (a.write ++ rest) = .ok (a.reread, rest) :=
  read_write_of_number (Field.number_writeNumber_reread h (Scan.endsNumber_cons (by decide)))

def Draft.Readable (d : Draft) : Prop := ∀ n, d.accountType = some n → n.Readable

theorem Draft.Readable.field {d d' : Draft} {name : String} {input rest : Bytes} (h : d.Readable)
    (read : d.field name input = .ok (d', rest)) : d'.Readable := by
  unfold Draft.field at read
  split_ifs at read
  · obtain ⟨⟨n, after⟩, number, same⟩ := exists_of_bind_eq_ok read
    obtain ⟨rfl, rfl⟩ := Prod.mk.inj (Except.ok.inj same)
    obtain ⟨_, number⟩ := Field.exists_of_once number
    rintro _ ⟨⟩
    exact Field.readable_of_number number
  · obtain ⟨⟨s, after⟩, -, same⟩ := exists_of_bind_eq_ok read
    obtain ⟨rfl, rfl⟩ := Prod.mk.inj (Except.ok.inj same)
    exact h
  · obtain ⟨⟨s, after⟩, -, same⟩ := exists_of_bind_eq_ok read
    obtain ⟨rfl, rfl⟩ := Prod.mk.inj (Except.ok.inj same)
    exact h
  · obtain ⟨after, -, same⟩ := exists_of_bind_eq_ok read
    obtain ⟨rfl, rfl⟩ := Prod.mk.inj (Except.ok.inj same)
    exact h

theorem readable_of_readRecord {input rest : Bytes} {a : Account}
    (h : readRecord input = .ok (a, rest)) : a.accountType.Readable := by
  obtain ⟨⟨d, after⟩, members, finish⟩ := exists_of_bind_eq_ok h
  obtain ⟨b, finished, same⟩ := exists_of_bind_eq_ok finish
  obtain ⟨rfl, rfl⟩ := Prod.mk.inj (Except.ok.inj same)
  have fresh : Draft.Readable {} := by
    intro n h
    cases h
  have read : d.Readable := Field.members_keep Draft.Readable.field fresh members
  obtain ⟨n, number, others⟩ := exists_of_bind_eq_ok finished
  obtain ⟨key, -, same⟩ := exists_of_bind_eq_ok others
  cases same
  refine read n ?_
  unfold Field.required at number
  split at number
  · rename_i found
    cases number
    exact found
  · cases number

theorem readable_of_readList {input rest : Bytes} {a : Account}
    (h : readList input = .ok (a, rest)) : a.accountType.Readable := by
  obtain ⟨⟨n, after⟩, number, others⟩ := exists_of_bind_eq_ok h
  obtain ⟨_, -, others⟩ := exists_of_bind_eq_ok others
  obtain ⟨_, -, same⟩ := exists_of_bind_eq_ok others
  cases same
  obtain ⟨_, number⟩ := Field.exists_of_item number
  exact Field.readable_of_number number

theorem readable_of_read {input rest : Bytes} {a : Account}
    (h : Account.read input = .ok (a, rest)) : a.accountType.Readable := by
  obtain ⟨_, _, list | record⟩ := Field.exists_of_structured h
  · exact readable_of_readList list
  · exact readable_of_readRecord record

end Account

namespace Document

def Readable : Document → Prop := Typed Number.Readable

theorem Readable.field {d d' : Document} {id : String} {input rest : Bytes} (h : d.Readable)
    (read : d.field id input = .ok (d', rest)) : d'.Readable := by
  obtain ⟨⟨a, after⟩, value, same⟩ := exists_of_bind_eq_ok read
  obtain ⟨rfl, rfl⟩ := Prod.mk.inj (Except.ok.inj same)
  obtain ⟨_, account⟩ := Field.exists_of_value value
  exact Typed.insert h id (Account.readable_of_read account)

theorem readable_of_parse {text : Bytes} {d : Document} (h : Document.parse text = .ok d) :
    d.Readable := by
  obtain ⟨rest, read⟩ := read_of_readWhole h
  unfold Document.read Field.leading at read
  split at read
  · cases read
  · dsimp only at read
    split_ifs at read
    obtain ⟨after, members⟩ := Field.exists_of_enclosed read
    have none : empty.Readable := by
      intro x h
      cases h
    exact Field.members_keep Readable.field none members

theorem parse_write_reread {d : Document} (h : d.Readable) :
    Document.parse d.write = .ok (d.withAccounts Account.reread) :=
  readWhole_of_read (read_write_of (fun x hx => Account.read_write_reread (h x hx)) [])

end Document

namespace Operation

def Readable : Operation → Prop
  | create _ input | update _ input => input.accountType.Readable
  | _ => True

def ChangesAccount (x : String) : Operation → Prop
  | create id _ | update id _ | delete id => id = x
  | _ => False

theorem ChangesAccount.changes {operation : Operation} {x : String}
    (h : operation.ChangesAccount x) : operation.Changes := by
  cases operation <;> trivial

theorem Rewrites.get?_of_ne {service : Service} {operation : Operation} {drawn : List Exchange}
    {document changed : Document} (h : operation.Rewrites service drawn document changed)
    {x y : String} (about : operation.ChangesAccount x) (other : y ≠ x) :
    changed.get? y = document.get? y := by
  cases h with
  | create absent stored =>
    obtain rfl := about
    rw [Document.get?_insert, if_neg other]
  | update present stored =>
    obtain rfl := about
    rw [Document.get?_insert, if_neg other]
  | delete present =>
    obtain rfl := about
    rw [Document.get?_erase, if_neg other]

theorem Rewrites.readable {service : Service} {operation : Operation} {drawn : List Exchange}
    {document changed : Document} (h : operation.Rewrites service drawn document changed)
    (own : operation.Readable) (others : document.Readable) : changed.Readable := by
  cases h with
  | create absent stored =>
    obtain ⟨key, sealed, -, -, rfl⟩ := stored
    exact Document.Typed.insert others _ own
  | update present stored =>
    obtain ⟨key, sealed, -, -, rfl⟩ := stored
    exact Document.Typed.insert others _ own
  | delete present => exact Document.Typed.erase others _

end Operation

theorem AccountInput.readable_of_ofValue? {text : Bytes} {v : Value}
    (h : Value.readFirst? text = some v)
    {input : AccountInput} (found : AccountInput.ofValue? v = some input) :
    input.accountType.Readable := by
  obtain ⟨field, member, found⟩ := Option.bind_eq_some_iff.1 found
  obtain ⟨n, number, found⟩ := Option.bind_eq_some_iff.1 found
  obtain ⟨_, -, found⟩ := Option.bind_eq_some_iff.1 found
  obtain ⟨_, -, found⟩ := Option.bind_eq_some_iff.1 found
  obtain ⟨_, -, found⟩ := Option.bind_eq_some_iff.1 found
  obtain ⟨_, -, same⟩ := Option.bind_eq_some_iff.1 found
  obtain rfl := Option.some.inj same
  match field, number with
  | .number _, rfl => exact Value.readable_of_member? h member

theorem Http.Site.readable_of_operation? {site : Site} {request : Request} {operation : Operation}
    (h : site.operation? request = some operation) : operation.Readable := by
  have input : ∀ input, request.input? = some input → input.accountType.Readable := by
    intro input found
    unfold Request.input? at found
    split at found
    · rename_i v body
      unfold Request.jsonBody at body
      split_ifs at body
      split at body
      · rename_i read
        obtain rfl := Except.ok.inj body
        exact AccountInput.readable_of_ofValue? read found
      · cases body
    · cases found
  rcases operation?_cases h with rfl | ⟨id, rfl | rfl | ⟨sent, found, rfl | rfl⟩⟩
  · trivial
  · trivial
  · trivial
  · exact input sent found
  · exact input sent found

namespace Session

variable {session : Session} {faults : Faults} {action : Action} {state : Scripted}

/-- An operation that is asked for directly comes with a number that a text can hold. In a request
there is no other. -/
def Action.Readable : Action → Prop
  | operation o => o.Readable
  | _ => True

theorem Action.Readable.asks? (h : action.Readable) {operation : Operation}
    (asks : action.asks? session.site = some operation) : operation.Readable := by
  cases action with
  | operation o => exact Option.some.inj asks ▸ h
  | request r => exact Http.Site.readable_of_operation? asks
  | _ => cases asks

theorem Action.onAccounts_of_asks? {operation : Operation}
    (asks : action.asks? session.site = some operation) (changes : operation.Changes) :
    action.OnAccounts := by
  cases action with
  | operation o =>
    obtain rfl := Option.some.inj asks
    cases o <;> trivial
  | request r => trivial
  | _ => cases asks

theorem Action.failed_rendered_failed (action : Action) (failure : Failure) :
    (action.rendered (.failed failure)).Failed := by
  cases action with
  | request r =>
    have status : 400 ≤ failure.kind.status := by cases failure.kind <;> decide
    change 400 ≤ ((Http.concluded (.failed failure)).coded r).status
    rwa [Http.Response.status_coded]
  | _ => trivial

theorem stores_of_not_failed (h : action.OnAccounts) {operation : Operation}
    (asks : action.asks? session.site = some operation) (changes : operation.Changes)
    (succeeded : ¬(session.step faults action state).result.Failed) :
    (session.exchanges faults action state).any Exchange.stores = true := by
  rcases result_cases h faults state with ⟨operation', reply, asks', reports, result⟩ | ⟨-, failed⟩
  · obtain rfl := Option.some.inj (asks.symm.trans asks')
    rcases reports.shape with ⟨answer, rfl, -⟩ | ⟨failure, rfl⟩
    · obtain ⟨_, _, _, tag, put⟩ := (reports.concludes changes).1 ⟨answer, rfl⟩
      exact List.any_eq_true.2 ⟨_, put, rfl⟩
    · rw [result] at succeeded
      exact absurd (action.failed_rendered_failed failure) succeeded
  · exact absurd (failed (by simp [asks])) succeeded

end Session

/-- A create, update or delete that succeeds leaves the other accounts what they are when they are
written and read again: the same accounts, but for the account types that are rounded in this. -/
theorem bystanders_reread (session : Session) (faults : Faults) (action : Session.Action)
    {operation : Operation} {x : String} (state : Scripted)
    (asks : action.asks? session.site = some operation) (about : operation.ChangesAccount x)
    (readable : action.Readable) (succeeded : ¬(session.step faults action state).result.Failed) :
    ∃ before after : Document,
      state.store.document? session.location = some (.ok before) ∧
      (session.step faults action state).state.store.document? session.location =
        some (.ok after) ∧
      ∀ y, y ≠ x → after.get? y = (before.get? y).map Account.reread ∧
        ∀ account, before.get? y = some account → account.accountType.Steady →
          after.get? y = some account := by
  have onAccounts := Session.Action.onAccounts_of_asks? asks about.changes
  have stores := Session.stores_of_not_failed onAccounts asks about.changes succeeded
  obtain ⟨operation', before, _, asks', found, ⟨document, drawn, changed, parsed, -, change, rfl⟩,
    stored⟩ := Session.bodies_of_stores onAccounts stores
  obtain rfl := Option.some.inj (asks.symm.trans asks')
  have held : document.Readable := Document.readable_of_parse parsed
  have written := Document.parse_write_reread (change.readable (readable.asks? asks) held)
  refine ⟨document, changed.withAccounts Account.reread, ?_, ?_, fun y other => ?_⟩
  · simp [MemoryStore.document?, found, parsed]
  · simp [MemoryStore.document?, stored, written]
  · rw [Document.get?_withAccounts, change.get?_of_ne about other]
    refine ⟨rfl, fun account same steady => ?_⟩
    rw [same, Option.map_some, Account.reread,
      steady.reread_eq (Document.typed_iff.1 held y account same)]

def rounding : Session.Setup where
  base := ""
  location := ⟨"bucket", "key"⟩
  key := none
  docs := none
  body := some (Utf8.encode ("\x7b\"a\":\x7b\"accountType\":5e32,\"apiKey\":\"k\"\x7d," ++
    "\"b\":\x7b\"accountType\":1,\"apiKey\":\"l\"\x7d," ++
    "\"c\":\x7b\"accountType\":0.25,\"apiKey\":\"m\"\x7d\x7d"))
  prepared := []

def MemoryStore.account? (store : MemoryStore) (location : Location) (id : String) :
    Option Account :=
  (store.document? location).bind fun read => read.toOption.bind (·.get? id)

theorem MemoryStore.account?_eq {store : MemoryStore} {location : Location} {document : Document}
    (h : store.document? location = some (.ok document)) (id : String) :
    store.account? location id = document.get? id := by
  rw [account?, h]
  rfl

theorem bystanders_reread_delete :
    let session : Session := ⟨⟨⟨rounding.location, none⟩, none, "", ⟨[]⟩⟩⟩
    let delete : Session.Action := .operation (.delete "b")
    let before := rounding.state.store
    let after := (session.step {} delete rounding.state).state.store
    ¬(session.step {} delete rounding.state).result.Failed ∧
      after.account? session.location "a" =
        (before.account? session.location "a").map Account.reread ∧
      after.account? session.location "c" = before.account? session.location "c" := by
  intro session delete before after
  have succeeded : ¬(session.step {} delete rounding.state).result.Failed := by decide +kernel
  obtain ⟨d, e, found, stored, others⟩ :=
    bystanders_reread session {} delete (x := "b") rounding.state rfl rfl trivial succeeded
  have quarter : before.account? session.location "c" =
      some ⟨.real ⟨false, 4598175219545276416⟩, "m", none⟩ := by
    decide +kernel
  refine ⟨succeeded, ?_, ?_⟩
  · rw [MemoryStore.account?_eq stored, MemoryStore.account?_eq found]
    exact (others "a" (by decide)).1
  · rw [MemoryStore.account?_eq stored, quarter]
    rw [MemoryStore.account?_eq found] at quarter
    refine (others "c" (by decide)).2 _ quarter ?_
    exact show Binary64.Steady 4598175219545276416 by decide +kernel

/-- The delete of one account has moved the account type of another to the number below it. -/
theorem bystander_rounded :
    let session : Session := ⟨⟨⟨rounding.location, none⟩, none, "", ⟨[]⟩⟩⟩
    let report := session.step {} (.operation (.delete "b")) rounding.state
    ¬report.result.Failed ∧
      rounding.state.store.account? session.location "a" =
        some ⟨.real ⟨false, 5096006472832567709⟩, "k", none⟩ ∧
      report.state.store.account? session.location "a" =
        some ⟨.real ⟨false, 5096006472832567708⟩, "k", none⟩ := by
  decide +kernel

end AccountVault
