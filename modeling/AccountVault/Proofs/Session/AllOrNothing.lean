import Mathlib
import AccountVault.Proofs.Account.Acceptance
import AccountVault.Proofs.Http.Agreement
import AccountVault.Proofs.Security.Twins

/-!
# All or nothing

One member that is no account makes the whole stored document unreadable, also if a later member of
the same name would have replaced it. No operation gets past such a document: each fails for the
same reason and leaves the stored bytes alone. Without such a member, every id has the account of
its last member.
-/

namespace AccountVault

open Json Program

namespace Json

def Numeral.TooLarge (n : Numeral) : Prop :=
  ∃ unread, n.reading = .error ⟨.numberTooLarge, unread⟩

theorem Numeral.exists_value?_iff {n : Numeral} : (∃ x, n.value? = some x) ↔ ¬n.TooLarge := by
  unfold value? TooLarge
  cases reading : n.reading with
  | ok x => simp [Except.toOption]
  | error fault =>
    obtain ⟨cause, unread⟩ := fault
    obtain rfl : cause = .numberTooLarge := cause_of_reading reading
    simp [Except.toOption]

/-- The term has the fields of an account, each as it should be. -/
inductive Term.Acceptable : Term → Prop
  | mk {members : List (String × Term)} {n : Numeral} {key : String}
      (type : named "accountType" members = [.number n]) (fits : ¬n.TooLarge)
      (text : named "apiKey" members = [.text key])
      (secret : named "apiPassword" members = [] ∨ named "apiPassword" members = [.null] ∨
        ∃ s, named "apiPassword" members = [.text s]) :
    Acceptable (.record members)

theorem Term.exists_isPassword_iff {values : List Term} :
    (∃ password, IsPassword values password) ↔
      values = [] ∨ values = [.null] ∨ ∃ s, values = [.text s] := by
  constructor
  · rintro ⟨_, _ | _ | s⟩
    · exact .inl rfl
    · exact .inr (.inl rfl)
    · exact .inr (.inr ⟨s, rfl⟩)
  · rintro (rfl | rfl | ⟨s, rfl⟩)
    · exact ⟨_, .absent⟩
    · exact ⟨_, .null⟩
    · exact ⟨_, .text s⟩

theorem Term.acceptable_iff {t : Term} : t.Acceptable ↔ ∃ a, t.Describes a := by
  constructor
  · rintro ⟨type, fits, text, secret⟩
    obtain ⟨x, value⟩ := Numeral.exists_value?_iff.2 fits
    obtain ⟨password, secret⟩ := exists_isPassword_iff.2 secret
    exact ⟨_, .mk type value text secret⟩
  · rintro ⟨a, type, value, text, secret⟩
    exact .mk type (Numeral.exists_value?_iff.1 ⟨_, value⟩) text
      (exists_isPassword_iff.1 ⟨_, secret⟩)

theorem Term.account?_eq_some_iff {t : Term} (record : ∀ items, t ≠ .list items) {a : Account} :
    t.account? = some a ↔ t.Describes a := by
  cases t with
  | list items => exact absurd rfl (record items)
  | record members => exact recorded?_eq_some_iff
  | _ =>
    constructor
    · intro none
      cases none
    · intro described
      cases described

theorem Term.mem_named_iff {id : String} {t : Term} {members : List (String × Term)} :
    t ∈ named id members ↔ (id, t) ∈ members := by
  simp only [named, List.mem_map, List.mem_filter, decide_eq_true_eq, Prod.exists]
  constructor
  · rintro ⟨name, value, ⟨mem, rfl⟩, rfl⟩
    exact mem
  · intro mem
    exact ⟨id, t, ⟨mem, rfl⟩, rfl⟩

end Json

theorem Json.toOption_eq_some_iff {ε α : Type} {x : Except ε α} {a : α} :
    x.toOption = some a ↔ x = .ok a := by
  cases x <;> simp [Except.toOption]

namespace Document

variable {members : List (String × Term)} {d e : Document}

theorem walk_cons (m : String × Term) :
    Field.walk next d (m :: members) =
      m.2.account?.bind fun a => Field.walk next (d.insert m.1 a) members := by
  rw [Field.walk, List.foldlM_cons, next]
  cases m.2.account? <;> rfl

theorem exists_walk_iff :
    (∃ e, Field.walk next d members = some e) ↔ ∀ m ∈ members, ∃ a, m.2.account? = some a := by
  induction members generalizing d with
  | nil => simp [Field.walk]
  | cons m members ih =>
    rw [walk_cons, List.forall_mem_cons]
    cases m.2.account? with
    | none => simp
    | some a =>
      rw [Option.bind_some, ih]
      simp

theorem get?_walk (walk : Field.walk next d members = some e) (id : String) :
    e.get? id = match (Term.named id members).getLast? with
      | some t => t.account?
      | none => d.get? id := by
  induction members generalizing d with
  | nil =>
    obtain rfl : d = e := Option.some.inj walk
    rfl
  | cons m members ih =>
    rw [walk_cons] at walk
    obtain ⟨a, account, walk⟩ := Option.bind_eq_some_iff.1 walk
    rw [ih walk, Term.named_cons, get?_insert]
    by_cases same : m.1 = id
    · subst same
      rw [if_pos rfl, if_pos rfl, List.getLast?_cons]
      cases (Term.named m.1 members).getLast? with
      | none => exact account.symm
      | some t => rfl
    · rw [if_neg same, if_neg (Ne.symm same)]

end Document

section

variable {σ α β : Type} {backend : Backend σ} {state last : σ} {service : Service}

theorem Program.Ends.attempt_bind_error {x : Attempt α} {f : α → Attempt β} {failure : Failure}
    (h : Ends backend x.run state (.error failure) last) :
    Ends backend (x >>= f).run state (.error failure) last :=
  Ends.bind h (ends_done _ _)

theorem Reply.ends_ofAttempt_error {x : Attempt α} {failure : Failure} (succeeded : α → Reply)
    (h : Ends backend x.run state (.error failure) last) :
    Ends backend (ofAttempt succeeded x) state (.failed failure) last :=
  Ends.bind h (ends_done _ _)

theorem Operation.ends_of_snapshot_error {operation : Operation} (on : operation.OnAccounts)
    {failure : Failure}
    (h : Ends backend (DocumentStore.snapshot service.location).run state (.error failure) last) :
    Ends backend (operation.run service) state (.failed failure) last := by
  have download : Ends backend (DocumentStore.download service.location).run state (.error failure)
      last := h.attempt_bind_error
  cases operation with
  | create id input => exact Reply.ends_ofAttempt_error _ h.attempt_bind_error
  | update id input => exact Reply.ends_ofAttempt_error _ h.attempt_bind_error
  | delete id => exact Reply.ends_ofAttempt_error _ h.attempt_bind_error
  | get id => exact Reply.ends_ofAttempt_error _ download.attempt_bind_error
  | list => exact Reply.ends_ofAttempt_error _ download.attempt_bind_error
  | _ => exact absurd on id

end

theorem Scripted.ends_snapshot_unread {state : Scripted} {location : Location} {body : Bytes}
    {etag : String} {failure : Failure} (stored : state.store.objects location = some (body, etag))
    (unread : DocumentStore.reading body = .error failure) :
    Ends (backend {}) (DocumentStore.snapshot location).run state (.error failure)
      (state.afterRead location) := by
  have found : (backend {}).head location state =
      (some (.ok ()), state.record (.head location)) := by
    simp [backend, head, record, MemoryStore.head, stored]
  have fetched : (backend {}).get location (state.record (.head location)) =
      (some (.ok ⟨body, some etag⟩), state.afterRead location) := by
    simp [backend, get, afterRead, record, MemoryStore.get, stored]
  have logged : ∀ p : Program Unit, p.Silent → ∀ outcome : Except Failure Snapshot,
      Ends (backend {}) (p.bind fun _ => .done outcome) (state.afterRead location) outcome
        (state.afterRead location) := by
    intro p silent outcome
    induction silent with
    | done a => exact ends_done _ _
    | log event _ ih => exact ends_log event ih
  refine ends_head found (ends_get fetched ?_)
  change Ends _ (DocumentStore.interpret location ⟨body, some etag⟩).run _ _ _
  rw [DocumentStore.run_interpret_eq, unread]
  exact logged _ (DocumentStore.silent_noteReading _ _) _

namespace Session

variable {session : Session} {state : Scripted}

theorem step_unread {operation : Operation} (on : operation.OnAccounts) {body : Bytes}
    {failure : Failure} (stored : state.store.body? session.location = some body)
    (unread : DocumentStore.reading body = .error failure) :
    let report := session.step {} (.operation operation) state
    report.result = .reply (.failed failure) ∧ report.state.store = state.store := by
  obtain ⟨⟨_, etag⟩, found, rfl⟩ := Option.map_eq_some_iff.1 stored
  have snapshot := Scripted.ends_snapshot_unread
    (show { state with calls := [] }.store.objects session.site.service.location = _ from found)
      unread
  obtain ⟨result, last⟩ := step_operation_of_ends (Operation.ends_of_snapshot_error on snapshot)
  exact ⟨result, by rw [last]; rfl⟩

end Session

theorem Failure.message_malformedDocument (reason : String) :
    (malformedDocument reason).message = "accounts document is malformed" ++ (": " ++ reason) := by
  have split : "accounts document is malformed: " = "accounts document is malformed" ++ ": " := by
    simp
  rw [← String.append_assoc]
  exact congrArg (· ++ reason) split

theorem Document.isBlankBody_spelled {t : Term} {lead bytes trail : Bytes}
    (h : Spells (.value t) bytes) (record : ∃ members, t = .record members) :
    Blank.isBlankBody (lead ++ (bytes ++ trail)) = false := by
  obtain ⟨members, rfl⟩ := record
  cases h with
  | record h hb =>
    rw [Blank.isBlankBody, List.all_eq_false]
    exact ⟨0x7b, by simp, by decide⟩

/-- A document is read if all its members are accounts, and then each id has its last one. If one
member is none, no operation gets past the document. -/
theorem document_all_or_nothing {members : List (String × Term)} {lead bytes trail : Bytes}
    (spelled : Spells (.value (.record members)) bytes) (hl : Blanks lead) (ht : Blanks trail)
    (unlisted : ∀ m ∈ members, ∀ items, m.2 ≠ .list items) :
    let body := lead ++ (bytes ++ trail)
    ((∃ d, Document.parse body = .ok d) ↔ ∀ m ∈ members, m.2.Acceptable) ∧
      (∀ d, Document.parse body = .ok d →
        (∀ id, d.contains id = true ↔ id ∈ members.map Prod.fst) ∧
          ∀ id a, d.get? id = some a ↔
            ∃ t, (Term.named id members).getLast? = some t ∧ t.Describes a) ∧
      ((¬∀ m ∈ members, m.2.Acceptable) → ∀ (session : Session) (operation : Operation)
        (state : Scripted), operation.OnAccounts →
        state.store.body? session.location = some body →
          let report := session.step {} (.operation operation) state
          (∃ failure reason, report.result = .reply (.failed failure) ∧ failure.kind = .internal ∧
            failure.message = "accounts document is malformed" ++ reason) ∧
          report.state.store = state.store) := by
  intro body
  have parsed := Document.parse_spelled spelled hl ht
  have accounts : (∀ m ∈ members, ∃ a, m.2.account? = some a) ↔ ∀ m ∈ members, m.2.Acceptable := by
    refine forall₂_congr fun m hm => ?_
    rw [Term.acceptable_iff]
    exact exists_congr fun a => Term.account?_eq_some_iff (unlisted m hm)
  have accepted : (∃ d, Document.parse body = .ok d) ↔ ∀ m ∈ members, m.2.Acceptable := by
    rw [← accounts, ← Document.exists_walk_iff, ← parsed]
    exact exists_congr fun d => toOption_eq_some_iff.symm
  refine ⟨accepted, fun d read => ?_, fun bad session operation state on stored => ?_⟩
  · have walk : Field.walk Document.next Document.empty members = some d := by
      rw [← parsed]
      exact toOption_eq_some_iff.2 read
    have last := Document.get?_walk walk
    have exist := Document.exists_walk_iff.1 ⟨d, walk⟩
    have member : ∀ {id t}, (Term.named id members).getLast? = some t → (id, t) ∈ members :=
      fun found => Term.mem_named_iff.1 (List.mem_of_getLast? found)
    refine ⟨fun id => ?_, fun id a => ?_⟩
    · rw [Document.contains, last]
      cases found : (Term.named id members).getLast? with
      | none =>
        have unnamed : id ∉ members.map Prod.fst := by
          intro named
          obtain ⟨⟨_, t⟩, written, rfl⟩ := List.mem_map.1 named
          have mem := Term.mem_named_iff.2 written
          rw [List.getLast?_eq_none_iff.1 found] at mem
          cases mem
        simp [unnamed, Document.get?, Document.empty]
      | some t =>
        obtain ⟨a, account⟩ := exist _ (member found)
        have mem := List.mem_map_of_mem (f := Prod.fst) (member found)
        simp [account, mem]
    · rw [last]
      cases found : (Term.named id members).getLast? with
      | none => simp [Document.get?, Document.empty]
      | some t =>
        rw [Term.account?_eq_some_iff (unlisted _ (member found))]
        simp
  · cases read : Document.parse body with
    | ok d => exact absurd (accepted.1 ⟨d, read⟩) bad
    | error fault =>
      have unread := DocumentStore.reading_of_parse_error
        (Document.isBlankBody_spelled spelled ⟨_, rfl⟩) read
      obtain ⟨result, store⟩ := Session.step_unread on stored unread
      exact ⟨⟨_, _, result, rfl, Failure.message_malformedDocument _⟩, store⟩

def Json.Numeral.ofDigit (byte : UInt8) (h : Scan.isDigit byte = true) : Numeral where
  negative := false
  whole := ⟨[byte], by simp, by simpa using h⟩
  lead := by simp
  fraction := none
  exponent := none

def overridden : List (String × Term) :=
  [("a", .null),
    ("a", .record [("accountType", .number (.ofDigit 0x31 rfl)), ("apiKey", .text "k")])]

theorem document_all_or_nothing_overridden :
    ∃ bytes, Spells (.value (.record overridden)) bytes ∧ (¬∃ d, Document.parse bytes = .ok d) ∧
      let session : Session := ⟨⟨⟨⟨"bucket", "key"⟩, none⟩, none, "", ⟨[]⟩⟩⟩
      ∃ failure, (session.step {} (.operation .list)
        ⟨MemoryStore.empty.insert ⟨"bucket", "key"⟩ bytes, [], [], []⟩).result =
          .reply (.failed failure) ∧ failure.kind = .internal := by
  have first := Gap.first blanks_nil
  have next := Gap.next blanks_nil blanks_nil
  have id : SpellsChars "a".toList _ := spellsChars_visible (by simp)
  have type : SpellsChars "accountType".toList _ := spellsChars_visible (by simp)
  have key : SpellsChars "apiKey".toList _ := spellsChars_visible (by simp)
  have value : SpellsChars "k".toList _ := spellsChars_visible (by simp)
  have fields := Spells.member first type blanks_nil blanks_nil (.number (.ofDigit 0x31 rfl))
    (.member next key blanks_nil blanks_nil (.text value) (.noMember false))
  have spelled : Spells (.value (.record overridden)) _ := .record (.member first id blanks_nil
    blanks_nil .null (.member next id blanks_nil blanks_nil (.record fields blanks_nil)
      (.noMember false))) blanks_nil
  have bad : ¬∀ m ∈ overridden, m.2.Acceptable := by
    intro all
    cases all ("a", .null) (by simp [overridden])
  have unlisted : ∀ m ∈ overridden, ∀ items, m.2 ≠ .list items := by
    simp [overridden]
  obtain ⟨accepted, -, refused⟩ := document_all_or_nothing spelled blanks_nil blanks_nil unlisted
  obtain ⟨⟨failure, reason, result, kind, -⟩, -⟩ := refused bad
    ⟨⟨⟨⟨"bucket", "key"⟩, none⟩, none, "", ⟨[]⟩⟩⟩ .list
    ⟨MemoryStore.empty.insert ⟨"bucket", "key"⟩ _, [], [], []⟩ trivial rfl
  rw [List.nil_append, List.append_nil] at accepted result
  exact ⟨_, spelled, fun read => bad (accepted.1 read), failure, result, kind⟩

end AccountVault
