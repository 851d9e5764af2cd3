import Mathlib
import AccountVault.Proofs.Account.Sealing
import AccountVault.Proofs.Account.WireFormats

/-!
# Sealed texts that a step gives away

A sealed text leaves the service in the answer to a direct encryption, in the answer to a create or
an update, directly or as the body of a response, and in the document that is stored. Whichever way
it leaves, it is the secret that came with the step, sealed under the vector that the step has
drawn. A create or an update that succeeds gives it away both in its answer and in the store. Main
statement: sealing has a text of the one shape for every secret and every whole vector, and that is
what comes back and what is stored.
-/

namespace AccountVault

open Program

theorem AccountAnswer.parse_write_reread {r : AccountAnswer} (small : r.statusCode < 65536)
    (readable : ∀ d ∈ r.account, d.Readable) :
    AccountAnswer.parse r.write =
      .ok { r with account := r.account.map (Document.withAccounts Account.reread) } := by
  apply parse_write_of small
  intro d held rest
  exact Document.read_write_of (fun x mem => Account.read_write_reread (readable d held x mem)) rest

theorem Document.withAccounts_single (f : Account → Account) (id : String) (a : Account) :
    (single id a).withAccounts f = single id (f a) :=
  Document.ext rfl

namespace Session

def Result.answer? : Result → Option AccountAnswer
  | reply (.account answer) => some answer
  | response r => (AccountAnswer.parse r.body).toOption
  | _ => none

variable {session : Session} {faults : Faults} {action : Action} {state : Scripted}
  {operation : Operation} {id text : String} {input : AccountInput}

theorem Action.answer?_cutOff (action : Action) : (action.told none).answer? = none := by
  cases action with
  | request r =>
    rw [told, Result.answer?, Http.Response.body_coded]
    decide +kernel
  | _ => rfl

theorem Action.answer?_failed {failure : Failure} {answer : AccountAnswer}
    (read : (action.rendered (.failed failure)).answer? = some answer) : answer.account = none := by
  cases action with
  | request r =>
    have small : failure.kind.status < 65536 := by cases failure.kind <;> decide
    rw [rendered, Result.answer?, Http.Response.body_coded] at read
    have parsed : AccountAnswer.parse (Http.concluded (.failed failure)).body = _ :=
      AccountAnswer.parse_error (e := ⟨failure.message, failure.kind.status⟩) small
    rw [parsed] at read
    rw [← Option.some.inj read]
  | _ => cases read

theorem Action.answer?_account {answer : AccountAnswer} {account : Account}
    (held : answer.account = some (.single id account)) (small : answer.statusCode < 65536)
    (readable : ∀ r, action = .request r → account.accountType.Readable) :
    ∃ read number, (action.rendered (.account answer)).answer? = some read ∧
      read.account = some (.single id { account with accountType := number }) := by
  cases action with
  | request r =>
    have fits : ∀ d ∈ answer.account, d.Readable := by
      intro d same x mem
      obtain rfl := Option.some.inj (held.symm.trans same)
      obtain rfl := List.mem_singleton.1 mem
      exact readable r rfl
    have parsed := AccountAnswer.parse_write_reread small fits
    rw [held, Option.map_some, Document.withAccounts_single] at parsed
    refine ⟨{ answer with account := some (.single id account.reread) }, _, ?_, rfl⟩
    rw [rendered, Result.answer?, Http.Response.body_coded]
    exact congrArg Except.toOption parsed
  | _ => exact ⟨answer, account.accountType, rfl, held⟩

namespace Occurrence

def Stores (site : Http.Site) (x : Occurrence) (id text : String) : Prop :=
  ∃ input place body tag confirmed document account, x.Asks site id input ∧
    .put place body tag (.ok confirmed) ∈ x.exchanges ∧ Document.parse body = .ok document ∧
    document.get? id = some account ∧ account.apiPassword = some text

/-- The step gives a sealed text away, in what comes back or in the store. -/
inductive Issues (site : Http.Site) (x : Occurrence) (result : Result) : String → Prop
  | encrypted {plaintext : String} {sealed : Sealed}
      (asks : x.action.asks? site = some (.encrypt plaintext))
      (told : result = .reply (.sealed sealed)) : Issues site x result sealed.text
  | returned {id other text : String} {input : AccountInput} {answer : AccountAnswer}
      {document : Document} {account : Account} (asks : x.Asks site id input)
      (read : result.answer? = some answer) (listed : answer.account = some document)
      (found : document.get? other = some account) (password : account.apiPassword = some text) :
    Issues site x result text
  | stored {id text : String} (stores : x.Stores site id text) : Issues site x result text

theorem Asks.brings {site : Http.Site} {x : Occurrence} (asks : x.Asks site id input) :
    ∃ operation, x.action.asks? site = some operation ∧ operation.Brings id input := by
  rcases asks with create | update
  · exact ⟨_, create, .inl rfl⟩
  · exact ⟨_, update, .inr rfl⟩

end Occurrence

theorem sealed_of_stores (asks : action.asks? session.site = some operation)
    (brings : operation.Brings id input)
    (stores : (session.exchanges faults action state).any Exchange.stores = true) :
    ∃ (document : Document) (text : String), (∀ place body tag confirmed,
        .put place body tag (.ok confirmed) ∈ session.exchanges faults action state →
          body = document.write) ∧
      (session.step faults action state).state.store.body? session.location =
        some document.write ∧
      (operation.Readable → document.Readable) ∧
      document.get? id = some ⟨input.accountType, input.apiKey, some text⟩ ∧
      operation.SealsInto session.site.service (session.exchanges faults action state) text := by
  have onAccounts := Action.onAccounts_of_asks? asks brings.changes
  obtain ⟨operation', object, document, changed, drawn, tag, asks', exchanged, parsed, change⟩ :=
    exchanges_of_stores onAccounts stores
  obtain rfl := Option.some.inj (asks.symm.trans asks')
  have readable : operation.Readable → changed.Readable :=
    fun own => change.readable own (Document.readable_of_parse parsed)
  obtain ⟨iv, account, rfl, stored, rfl⟩ := change.brought brings
  obtain ⟨text, rfl, seals⟩ := Operation.sealsInto_of_seals brings stored
  refine ⟨_, text, ?_, ?_, readable, ?_, seals _ (by rw [exchanged]; rfl)⟩
  · intro place body tag' confirmed put
    rw [exchanged] at put
    rcases List.mem_append.1 put with early | last
    · simp [Service.fetched] at early
    · injection List.mem_singleton.1 last
  · rw [store_step onAccounts, exchanged, List.foldl_append]
    simp [Exchange.effect, MemoryStore.body?]
  · rw [Document.get?_insert, if_pos rfl]

theorem sealsInto_of_stores
    (stores : Occurrence.Stores session.site
      ⟨faults, action, session.exchanges faults action state⟩ id text) :
    ∃ operation input, action.asks? session.site = some operation ∧ operation.Brings id input ∧
      operation.SealsInto session.site.service (session.exchanges faults action state) text := by
  obtain ⟨input, place, body, tag, confirmed, document, account, asked, put, parsed, found,
    password⟩ := stores
  obtain ⟨operation, asks, brings⟩ := asked.brings
  obtain ⟨changed, text', only, -, -, held, seals⟩ :=
    sealed_of_stores asks brings (List.any_eq_true.2 ⟨_, put, rfl⟩)
  obtain rfl := only _ _ _ _ put
  obtain ⟨kept, held', same⟩ := Document.exists_of_parse_write parsed found
  obtain rfl := Option.some.inj (held.symm.trans held')
  obtain rfl : text' = text := by
    rw [password] at same
    exact Option.some.inj same
  exact ⟨operation, input, asks, brings, seals⟩

theorem Action.failed_cutOff (action : Action) : (action.told none).Failed := by
  cases action with
  | request r =>
    change 400 ≤ (Http.Response.cutOff.coded r).status
    rw [Http.Response.status_coded]
    decide
  | _ => trivial

theorem result_of_brings (asks : action.asks? session.site = some operation)
    (brings : operation.Brings id input) (faults : Faults) (state : Scripted) :
    (∃ answer number text,
      (session.step faults action state).result.answer? = some answer ∧
      answer.account = some (.single id ⟨number, input.apiKey, some text⟩) ∧
      operation.SealsInto session.site.service (session.exchanges faults action state) text) ∨
    (session.step faults action state).result.Failed ∧
      ∀ answer, (session.step faults action state).result.answer? = some answer →
        answer.account = none := by
  have meets : (operation.run session.site.service).Meets _ _ [] :=
    (Operation.meets_reports brings.onAccounts).and (Operation.meets_delivers brings)
  rcases result_of_meets asks meets faults state with ⟨reply, told, reports, delivers⟩ | ⟨told, -⟩
  · rw [told]
    rcases reports.shape with ⟨sent, rfl, plain⟩ | ⟨failure, rfl⟩
    · obtain ⟨text, seals, held⟩ := delivers sent rfl
      have readable : ∀ r, action = .request r → input.accountType.Readable := by
        rintro r rfl
        exact brings.readable (Http.Site.readable_of_operation? asks)
      obtain ⟨answer, number, read, listed⟩ := Action.answer?_account held (by omega) readable
      exact .inl ⟨answer, number, text, read, listed, seals⟩
    · exact .inr ⟨action.failed_rendered_failed failure, fun answer => Action.answer?_failed⟩
  · rw [told, Action.answer?_cutOff]
    exact .inr ⟨action.failed_cutOff, nofun⟩

theorem sealsInto_of_issues
    (issues : Occurrence.Issues session.site ⟨faults, action, session.exchanges faults action state⟩
      (session.step faults action state).result text) :
    ∃ operation, action.asks? session.site = some operation ∧
      operation.SealsInto session.site.service (session.exchanges faults action state) text := by
  cases issues with
  | @encrypted plaintext sealed asks told =>
    refine ⟨_, asks, ?_⟩
    rcases result_of_meets asks (Operation.meets_encrypt plaintext) faults state with
      ⟨reply, rendered, -, seals⟩ | ⟨cut, -⟩
    · cases action with
      | operation o =>
        apply seals sealed
        exact Result.reply.inj (rendered.symm.trans told)
      | request r => cases rendered.symm.trans told
      | _ => cases asks
    · cases action with
      | operation o => cases cut.symm.trans told
      | request r => cases cut.symm.trans told
      | _ => cases asks
  | returned asks read listed found password =>
    obtain ⟨operation, asks, brings⟩ := asks.brings
    refine ⟨operation, asks, ?_⟩
    rcases result_of_brings asks brings faults state with
      ⟨answer, number, text', read', listed', seals⟩ | ⟨-, empty⟩
    · obtain rfl := Option.some.inj (read.symm.trans read')
      obtain rfl := Option.some.inj (listed.symm.trans listed')
      rw [Document.get?_single] at found
      split_ifs at found
      obtain rfl := Option.some.inj found
      obtain rfl := Option.some.inj password
      exact seals
    · rw [empty _ read] at listed
      cases listed
  | stored stores =>
    obtain ⟨operation, -, asks, -, seals⟩ := sealsInto_of_stores stores
    exact ⟨operation, asks, seals⟩

theorem issued_of_succeeded (asks : action.asks? session.site = some operation)
    (brings : operation.Brings id input)
    (succeeded : ¬(session.step faults action state).result.Failed) :
    ∃ text, operation.SealsInto session.site.service (session.exchanges faults action state) text ∧
      (∃ answer number, (session.step faults action state).result.answer? = some answer ∧
        answer.account = some (.single id ⟨number, input.apiKey, some text⟩)) ∧
      ∃ document : Document,
        (session.step faults action state).state.store.body? session.location =
          some document.write ∧ (operation.Readable → document.Readable) ∧
        document.get? id = some ⟨input.accountType, input.apiKey, some text⟩ := by
  have onAccounts := Action.onAccounts_of_asks? asks brings.changes
  obtain ⟨document, text, -, stored, readable, held, seals⟩ :=
    sealed_of_stores asks brings (stores_of_not_failed onAccounts asks brings.changes succeeded)
  rcases result_of_brings asks brings faults state with
    ⟨answer, number, text', read, listed, seals'⟩ | ⟨failed, -⟩
  · obtain rfl := seals.unique seals'
    exact ⟨text, seals, ⟨answer, number, read, listed⟩, document, stored, readable, held⟩
  · exact absurd failed succeeded

theorem step_encrypt {key : DataKey} {iv : Bytes} (configured : session.site.service.key = some key)
    (supplied : state.supply 0 = .ok iv) (plaintext : String) :
    (session.step faults (.operation (.encrypt plaintext)) state).result =
      match Sealed.encrypt key iv (Utf8.encode plaintext) with
      | .ok sealed => .reply (.sealed sealed)
      | .error e => .reply (.notSealed e) := by
  have drawn : ((Scripted.backend faults).draw Cipher.ivLength { state with calls := [] }).1 =
      .ok iv := (Scripted.draw_eq _).trans supplied
  obtain ⟨last, ends⟩ : ∃ last, Ends (Scripted.backend faults)
      (session.site.service.encrypt plaintext).run { state with calls := [] }
      (Sealed.encrypt key iv (Utf8.encode plaintext)) last := by
    rw [Service.encrypt, configured]
    constructor
    apply ends_draw
    rw [drawn]
    exact ends_done _ _
  have replies {reply : Reply} (told : Ends (Scripted.backend faults)
      ((Operation.encrypt plaintext).run session.site.service)
        { state with calls := [] } reply last) :
      (session.step faults (.operation (.encrypt plaintext)) state).result = .reply reply :=
    (step_operation_of_ends told).1
  cases encrypted : Sealed.encrypt key iv (Utf8.encode plaintext) with
  | ok sealed =>
    rw [encrypted] at ends
    exact replies (Ends.bind ends (ends_done _ _))
  | error e =>
    rw [encrypted] at ends
    exact replies (Ends.bind ends (ends_done _ _))

theorem account?_of_body? {store : MemoryStore} {location : Location} {document : Document}
    {account : Account} (stored : store.body? location = some document.write)
    (readable : document.Readable) (held : document.get? id = some account) :
    store.account? location id = some account.reread := by
  have read : store.document? location = some (.ok (document.withAccounts Account.reread)) := by
    simp [MemoryStore.document?, stored, Document.parse_write_reread readable]
  rw [MemoryStore.account?_eq read, Document.get?_withAccounts, held]
  rfl

end Session

/-- Every plaintext is sealed under every vector of sixteen bytes, into a text of the one shape for
plaintexts of that length; under any other vector nothing is sealed. A direct encryption comes back
with just that, for the vector it is given. The password in the answer to a create or an update that
succeeds, and the one that is then stored for the id, is such a text for the password that was sent.
-/
theorem sealed_texts_shaped :
    (∀ (key : DataKey) (plaintext : String) (iv : Bytes),
      let n := (Utf8.encode plaintext).length
      (iv.length = 16 → ∃ sealed, Sealed.encrypt key iv (Utf8.encode plaintext) = .ok sealed ∧
        sealed.iv = iv ∧ sealed.ciphertext.length = 16 * (n / 16 + 1) ∧
        Sealed.Shaped iv n sealed.text ∧ sealed.text.toList.count ':' = 1) ∧
      (iv.length ≠ 16 →
        Sealed.encrypt key iv (Utf8.encode plaintext) = .error (.ivLength iv.length))) ∧
    (∀ (session : Session) (key : DataKey) (faults : Faults) (plaintext : String) (iv : Bytes)
        (state : Scripted), session.site.service.key = some key → state.supply 0 = .ok iv →
      (session.step faults (.operation (.encrypt plaintext)) state).result =
        match Sealed.encrypt key iv (Utf8.encode plaintext) with
        | .ok sealed => .reply (.sealed sealed)
        | .error e => .reply (.notSealed e)) ∧
    ∀ (session : Session) (faults : Faults) (action : Session.Action) (state : Scripted)
        (operation : Operation) (id : String) (input : AccountInput),
      action.asks? session.site = some operation → operation.Brings id input →
      let report := session.step faults action state
      ¬report.result.Failed → ∃ key iv sealed, session.site.service.key = some key ∧
        iv.length = 16 ∧ Sealed.encrypt key iv (Utf8.encode input.apiPassword) = .ok sealed ∧
        Sealed.Shaped iv (Utf8.encode input.apiPassword).length sealed.text ∧
        (∃ answer number, report.result.answer? = some answer ∧
          answer.account = some (.single id ⟨number, input.apiKey, some sealed.text⟩)) ∧
        (∃ document : Document,
          report.state.store.body? session.location = some document.write ∧
          document.get? id = some ⟨input.accountType, input.apiKey, some sealed.text⟩) ∧
        (action.Readable → ∃ account,
          report.state.store.account? session.location id = some account ∧
          account.apiPassword = some sealed.text) := by
  refine ⟨?_, ?_, ?_⟩
  · intro key plaintext iv n
    constructor
    · intro whole
      have encrypted : Sealed.encrypt key iv (Utf8.encode plaintext) = _ :=
        Cipher.encrypt_eq_chained whole _
      have shaped := Sealed.shaped_text whole encrypted
      exact ⟨_, encrypted, rfl, Cipher.length_chained _ _ _, shaped, shaped.count_colon⟩
    · intro length
      exact Sealed.encrypt_of_length_ne length key _
  · intro session key faults plaintext iv state configured supplied
    exact Session.step_encrypt configured supplied plaintext
  · intro session faults action state operation id input asks brings report succeeded
    obtain ⟨text, ⟨key, iv, secret, sealed, configured, asked, -, encrypted, rfl⟩, returned,
      document, stored, readable, held⟩ := Session.issued_of_succeeded asks brings succeeded
    obtain rfl := Option.some.inj (asked.symm.trans brings.secret?)
    have whole := Session.length_of_encrypt encrypted
    refine ⟨key, iv, sealed, configured, whole, encrypted, Sealed.shaped_text whole encrypted,
      returned, ⟨document, stored, held⟩, ?_⟩
    intro fits
    exact ⟨_, Session.account?_of_body? stored (readable (fits.asks? asks)) held, rfl⟩

theorem sealed_texts_shaped_whole_block :
    let session := keyedBy 0
    let create : Session.Action := .operation (.create "c" ⟨.integer 3, "m", "sixteen letters!"⟩)
    let report := session.step {} create resting.state
    ∃ iv text, Sealed.Shaped iv 16 text ∧
      (∃ answer number, report.result.answer? = some answer ∧
        answer.account = some (.single "c" ⟨number, "m", some text⟩)) ∧
      ∃ account, report.state.store.account? session.location "c" = some account ∧
        account.apiPassword = some text := by
  intro session create report
  obtain ⟨-, -, sealed⟩ := sealed_texts_shaped
  have whole : (Utf8.encode "sixteen letters!").length = 16 := by decide +kernel
  have readable : create.Readable := ⟨by decide, by decide⟩
  obtain ⟨key, iv, value, -, -, -, shaped, returned, -, stored⟩ :=
    sealed session {} create resting.state _ "c" _ rfl (.inl rfl) (by decide +kernel)
  rw [whole] at shaped
  exact ⟨iv, value.text, shaped, returned, stored readable⟩

end AccountVault
