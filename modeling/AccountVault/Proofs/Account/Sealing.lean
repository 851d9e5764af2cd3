import Mathlib
import AccountVault.Proofs.Cipher.Shape
import AccountVault.Proofs.Session.Checks
import AccountVault.Proofs.Session.Steps
import AccountVault.Proofs.Session.WriteRequests

/-!
# What an operation seals

Three operations have a secret to seal. Each draws one vector when it gets to sealing, which it does
with a key only, and, if the secret is to be stored, with a document only that allows the change. No
other operation draws any. Whatever such an operation replies with or stores in the place of its
secret is the secret sealed under the vector that was drawn.
-/

namespace AccountVault

open Program

namespace Operation

def secret? : Operation → Option String
  | create _ input | update _ input => some input.apiPassword
  | encrypt plaintext => some plaintext
  | _ => none

def Brings (operation : Operation) (id : String) (input : AccountInput) : Prop :=
  operation = .create id input ∨ operation = .update id input

variable {service : Service} {operation : Operation} {trace : List Exchange} {id : String}
  {input : AccountInput} {text : String}

theorem Brings.changes (h : operation.Brings id input) : operation.Changes := by
  rcases h with rfl | rfl <;> trivial

theorem Brings.onAccounts (h : operation.Brings id input) : operation.OnAccounts := by
  rcases h with rfl | rfl <;> trivial

theorem Brings.secret? (h : operation.Brings id input) :
    operation.secret? = some input.apiPassword := by
  rcases h with rfl | rfl <;> rfl

theorem Brings.readable (h : operation.Brings id input) (readable : operation.Readable) :
    input.accountType.Readable := by
  rcases h with rfl | rfl <;> exact readable

/-- With these exchanges the operation has come to sealing, and there is a key. -/
def Encrypts (service : Service) (operation : Operation) (trace : List Exchange) : Prop :=
  service.key.isSome ∧ ((∃ plaintext, operation = .encrypt plaintext) ∨
    ∃ object document, .get service.location (.ok object) ∈ trace ∧
      Document.parse object.body = .ok document ∧ operation.NeedsVector document)

def Settled (service : Service) (operation : Operation) (trace : List Exchange) : Prop :=
  (operation.Encrypts service trace →
      ∃ answer, trace.filterMap Exchange.drawn? = [(Cipher.ivLength, answer)]) ∧
    (¬operation.Encrypts service trace → trace.filterMap Exchange.drawn? = [])

theorem needsVector_iff {document : Document} :
    operation.NeedsVector document ↔ operation.BringsPassword ∧ operation.Admits document := by
  cases operation <;> simp [NeedsVector, BringsPassword, Admits]

theorem encrypts_iff_of_changes (changes : operation.Changes) :
    operation.Encrypts service trace ↔ operation.BringsPassword ∧
      ∃ object, .get service.location (.ok object) ∈ trace ∧ operation.Passes service object := by
  constructor
  · rintro ⟨configured, ⟨plaintext, rfl⟩ | ⟨object, document, fetched, parsed, needed⟩⟩
    · exact changes.elim
    · obtain ⟨brings, admits⟩ := needsVector_iff.1 needed
      exact ⟨brings, object, fetched, (passes_iff parsed).2 ⟨admits, fun _ => configured⟩⟩
  · rintro ⟨brings, object, fetched, -, document, parsed, admits, configured⟩
    exact ⟨configured brings,
      .inr ⟨object, document, fetched, parsed, needsVector_iff.2 ⟨brings, admits⟩⟩⟩

theorem Course.settled (changes : operation.Changes) {reply : Reply} {status : Nat}
    (course : operation.Course service trace reply status) : operation.Settled service trace := by
  have orderly := course.orderly
  rw [Settled, encrypts_iff_of_changes changes]
  constructor
  · intro encrypts
    have one := orderly.draws.2 encrypts
    obtain ⟨⟨count, answer⟩, drawn, rfl⟩ := List.map_eq_singleton_iff.1 one
    exact ⟨answer, drawn⟩
  · intro spare
    rcases orderly.single with none | one
    · exact List.map_eq_nil_iff.1 none
    · exact absurd (orderly.draws.1 one) spare

theorem not_encrypts_of_not_fetched (onAccounts : operation.OnAccounts)
    (unread : ∀ object, .get service.location (.ok object) ∉ trace) :
    ¬operation.Encrypts service trace := by
  rintro ⟨-, ⟨plaintext, rfl⟩ | ⟨object, -, fetched, -⟩⟩
  · exact onAccounts
  · exact unread object fetched

theorem Turn.settled (onAccounts : operation.OnAccounts) {x : Exchange}
    (turn : operation.Turn service trace x) (call : x.drawn? = none) :
    operation.Settled service trace := by
  cases turn with
  | probe answer =>
    have unread : ¬operation.Encrypts service [] := not_encrypts_of_not_fetched onAccounts (by simp)
    exact ⟨fun encrypts => absurd encrypts unread, fun _ => rfl⟩
  | fetch answer =>
    have unread : ¬operation.Encrypts service [.head service.location (.ok ())] :=
      not_encrypts_of_not_fetched onAccounts (by simp)
    exact ⟨fun encrypts => absurd encrypts unread, fun _ => rfl⟩
  | draw answer parsed needed configured => cases call
  | @store object document changed drawn answer parsed change =>
    rw [Settled, encrypts_iff_of_changes change.changes]
    rcases change.drawn_cases with ⟨brings, configured, iv, -, rfl⟩ | ⟨unsealed, rfl⟩
    · have passes := (passes_iff parsed).2 ⟨change.admits, fun _ => configured⟩
      exact ⟨fun _ => ⟨.ok iv, rfl⟩, fun spare => absurd ⟨brings, object, by simp, passes⟩ spare⟩
    · exact ⟨fun encrypts => absurd encrypts.1 unsealed, fun _ => rfl⟩

theorem settled_of_undrawn (undrawn : ∀ x ∈ trace, x.drawn? = none)
    (spare : ¬operation.Encrypts service trace) : operation.Settled service trace :=
  ⟨fun encrypts => absurd encrypts spare, fun _ => List.filterMap_eq_nil_iff.2 undrawn⟩

theorem not_needsVector_of_secret? (spare : operation.secret? = none) (document : Document) :
    ¬operation.NeedsVector document := by
  cases operation with
  | create id input => cases spare
  | update id input => cases spare
  | _ => exact id

theorem not_encrypts_of_secret? (spare : operation.secret? = none) :
    ¬operation.Encrypts service trace := by
  rintro ⟨-, ⟨plaintext, rfl⟩ | ⟨object, document, -, -, needed⟩⟩
  · cases spare
  · exact not_needsVector_of_secret? spare document needed

theorem meets_undrawn (spare : operation.secret? = none) :
    Meets (fun _ x => x.drawn? = none) (fun _ _ => True) (operation.run service) [] := by
  have account (onAccounts : operation.OnAccounts) :
      Meets (fun _ x => x.drawn? = none) (fun _ _ => True) (operation.run service) [] := by
    refine (meets_run onAccounts).mono ?_ fun _ _ _ => trivial
    intro past x turn
    cases turn with
    | draw answer parsed needed configured =>
      exact absurd needed (not_needsVector_of_secret? spare _)
    | _ => rfl
  have snapshot : Meets (fun _ x => x.drawn? = none) (fun _ _ => True)
      (DocumentStore.snapshot service.location).run [] :=
    DocumentStore.meets_snapshot (fun _ => rfl) (fun _ => rfl) (fun _ _ _ => trivial)
      fun _ _ _ => trivial
  cases operation with
  | create id input => cases spare
  | update id input => cases spare
  | encrypt plaintext => cases spare
  | get id => exact account trivial
  | delete id => exact account trivial
  | list => exact account trivial
  | ready => trivial
  | probe =>
    intro answer
    refine ⟨rfl, ?_⟩
    cases answer <;> trivial
  | download =>
    refine Reply.meets_ofAttempt _ _ ((meets_attempt_bind _ _ _).2 ?_)
    refine snapshot.mono (fun _ _ hx => hx) fun past outcome _ => ?_
    cases outcome <;> trivial
  | snapshot => exact Reply.meets_ofAttempt _ _ snapshot
  | upload document ifMatch =>
    exact Reply.meets_ofAttempt _ _ (DocumentStore.meets_upload (fun _ => rfl) (fun _ => trivial)
      fun _ _ _ _ => trivial)
  | describe => trivial

/-- The text is the secret of the operation, sealed under the key and the one vector that was
drawn. -/
def SealsInto (service : Service) (operation : Operation) (trace : List Exchange) (text : String) :
    Prop :=
  ∃ key iv secret sealed, service.key = some key ∧ operation.secret? = some secret ∧
    trace.filterMap Exchange.drawn? = [(Cipher.ivLength, .ok iv)] ∧
    Sealed.encrypt key iv (Utf8.encode secret) = .ok sealed ∧ text = sealed.text

theorem SealsInto.unique {text' : String} (h : operation.SealsInto service trace text)
    (h' : operation.SealsInto service trace text') : text = text' := by
  obtain ⟨key, iv, secret, sealed, configured, asked, drawn, encrypted, rfl⟩ := h
  obtain ⟨key', iv', secret', sealed', configured', asked', drawn', encrypted', rfl⟩ := h'
  obtain rfl := Option.some.inj (configured.symm.trans configured')
  obtain rfl := Option.some.inj (asked.symm.trans asked')
  obtain rfl : iv = iv' := by simpa [drawn] using drawn'
  rw [Except.ok.inj (encrypted.symm.trans encrypted')]

theorem SealsInto.vector? (h : operation.SealsInto service trace text) :
    ∃ iv, trace.filterMap Exchange.drawn? = [(Cipher.ivLength, .ok iv)] ∧
      Sealed.vector? text = some iv := by
  obtain ⟨key, iv, secret, sealed, -, -, drawn, encrypted, rfl⟩ := h
  exact ⟨iv, drawn, Sealed.vector?_text (Session.length_of_encrypt encrypted) encrypted⟩

theorem sealsInto_of_seals {iv : Bytes} {account : Account} (brings : operation.Brings id input)
    (stored : service.Seals iv input account) :
    ∃ text, account = ⟨input.accountType, input.apiKey, some text⟩ ∧
      ∀ trace : List Exchange, trace.filterMap Exchange.drawn? = [(Cipher.ivLength, .ok iv)] →
        operation.SealsInto service trace text := by
  obtain ⟨key, sealed, configured, encrypted, rfl⟩ := stored
  refine ⟨sealed.text, rfl, ?_⟩
  intro trace drawn
  exact ⟨key, iv, _, sealed, configured, brings.secret?, drawn, encrypted, rfl⟩

theorem Rewrites.brought {drawn : List Exchange} {document changed : Document}
    (change : operation.Rewrites service drawn document changed)
    (brings : operation.Brings id input) :
    ∃ iv account, drawn = [.draw Cipher.ivLength (.ok iv)] ∧ service.Seals iv input account ∧
      changed = document.insert id account := by
  cases change with
  | create absent stored =>
    obtain ⟨rfl, rfl⟩ : _ = id ∧ _ = input := by simpa [Brings] using brings
    exact ⟨_, _, rfl, stored, rfl⟩
  | update present stored =>
    obtain ⟨rfl, rfl⟩ : _ = id ∧ _ = input := by simpa [Brings] using brings
    exact ⟨_, _, rfl, stored, rfl⟩
  | delete present => simp [Brings] at brings

def Delivers (service : Service) (operation : Operation) (id : String) (input : AccountInput)
    (trace : List Exchange) (reply : Reply) : Prop :=
  ∀ answer, reply = .account answer → ∃ text, operation.SealsInto service trace text ∧
    answer.account = some (.single id ⟨input.accountType, input.apiKey, some text⟩)

theorem meets_kept (brings : operation.Brings id input) {object : StoredObject}
    (document : Document) (status : Nat) (message told : String) :
    Meets (fun _ _ => True)
      (fun past outcome => operation.Delivers service id input past (.ofOutcome .account outcome))
      (do
        let account ← service.sealInput input
        DocumentStore.upload service.location (document.insert id account) object.etag
        Service.note message id
        return Service.answer status (.single id account) told : Attempt AccountAnswer).run
      (service.fetched object) := by
  rw [meets_attempt_bind]
  apply Service.meets_sealInput
  · exact fun _ _ => trivial
  · exact fun _ _ _ => nofun
  · intro iv account stored
    dsimp only
    rw [meets_attempt_bind]
    apply DocumentStore.meets_upload
    · exact fun _ => trivial
    · rintro tag answer ⟨⟩
      obtain ⟨text, rfl, seals⟩ := sealsInto_of_seals brings stored
      exact ⟨text, seals _ rfl, rfl⟩
    · exact fun _ _ _ _ => nofun

theorem delivers_failed (failure : Failure) :
    operation.Delivers service id input trace (.failed failure) := nofun

theorem meets_delivers (brings : operation.Brings id input) :
    Meets (fun _ _ => True) (operation.Delivers service id input) (operation.run service) [] := by
  have snapshot {next : Snapshot → Attempt AccountAnswer}
      (read : ∀ (object : StoredObject) document, Meets (fun _ _ => True)
        (fun past outcome => operation.Delivers service id input past (.ofOutcome .account outcome))
        (next ⟨document, object.etag⟩).run (service.fetched object)) :
      Meets (fun _ _ => True) (operation.Delivers service id input)
        (Reply.ofAttempt .account (DocumentStore.snapshot service.location >>= next)) [] := by
    apply Reply.meets_ofAttempt
    rw [meets_attempt_bind]
    exact DocumentStore.meets_snapshot (fun _ => trivial) (fun _ => trivial)
      (fun _ failure _ => delivers_failed failure) fun object document _ => read object document
  rcases brings with rfl | rfl
  · apply snapshot
    intro object document
    dsimp only
    split
    · exact delivers_failed _
    · exact meets_kept (.inl rfl) document _ _ _
  · apply snapshot
    intro object document
    dsimp only
    split
    · exact delivers_failed _
    · exact meets_kept (.inr rfl) document _ _ _

theorem meets_encrypt (plaintext : String) :
    Meets (fun _ x => x.drawn? ≠ none)
      (fun trace reply => (encrypt plaintext).Settled service trace ∧
        ∀ sealed, reply = .sealed sealed →
          (encrypt plaintext).SealsInto service trace sealed.text)
      ((encrypt plaintext).run service) [] := by
  have unsealed {trace : List Exchange} (e : SealError) : ∀ sealed,
      Reply.notSealed e = .sealed sealed →
        (encrypt plaintext).SealsInto service trace sealed.text := by
    intro sealed same
    cases same
  unfold run Service.encrypt
  cases configured : service.key with
  | none =>
    have keyless : ¬(encrypt plaintext).Encrypts service [] := by simp [Encrypts, configured]
    exact ⟨settled_of_undrawn (by simp) keyless, unsealed _⟩
  | some key =>
    intro answer
    refine ⟨by simp [Exchange.drawn?], ?_⟩
    have settled : (encrypt plaintext).Settled service [.draw Cipher.ivLength answer] := by
      refine ⟨fun _ => ⟨answer, rfl⟩, fun spare => absurd ⟨?_, .inl ⟨plaintext, rfl⟩⟩ spare⟩
      simp [configured]
    cases answer with
    | error e => exact ⟨settled, unsealed _⟩
    | ok iv =>
      dsimp only
      cases encrypted : Sealed.encrypt key iv (Utf8.encode plaintext) with
      | error e => exact ⟨settled, unsealed _⟩
      | ok sealed =>
        refine ⟨settled, ?_⟩
        intro other same
        obtain rfl := Reply.sealed.inj same
        exact ⟨key, iv, plaintext, sealed, configured, rfl, rfl, encrypted, rfl⟩

theorem Brings.settled {σ : Type} (brings : operation.Brings id input) (backend : Backend σ)
    (state : σ) :
    operation.Settled service ((operation.run service).exchanges backend state) := by
  rcases (meets_course brings.changes).value_cases backend state with
    ⟨reply, -, status, course⟩ | ⟨cut, -⟩
  · exact course.settled brings.changes
  · obtain ⟨x, call, turn⟩ := (meets_reports brings.onAccounts).cutOff_cases cut
    exact turn.settled brings.onAccounts call

theorem settled_run {σ : Type} (service : Service) (operation : Operation) (backend : Backend σ)
    (state : σ) :
    operation.Settled service ((operation.run service).exchanges backend state) := by
  cases asked : operation.secret? with
  | none =>
    apply settled_of_undrawn _ (not_encrypts_of_secret? asked)
    intro x mem
    obtain ⟨before, rest, split⟩ := List.append_of_mem mem
    have follows := (@meets_undrawn service operation asked).follows backend state
    rw [split] at follows
    exact follows.of_append
  | some secret =>
    cases operation with
    | create id input => exact Brings.settled (.inl rfl) backend state
    | update id input => exact Brings.settled (.inr rfl) backend state
    | encrypt plaintext =>
      rcases (meets_encrypt plaintext).value_cases backend state with
        ⟨reply, -, settled, -⟩ | ⟨cut, -⟩
      · exact settled
      · obtain ⟨x, call, draw⟩ := (@meets_encrypt service plaintext).cutOff_cases cut
        exact absurd call draw
    | _ => cases asked

end Operation

end AccountVault
