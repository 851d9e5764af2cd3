import Mathlib
import AccountVault.Proofs.Security.Twins

/-!
# Where secrets flow

A password that is sent and the key that it is sealed under show in the sealed password and nowhere
else. Two sessions that start alike and are asked for the same operations, with other passwords and
under another key, log the same events, make the same calls, draw the same vectors and answer alike,
step after step, once passwords are removed from the answers. What they store differs in the content
of passwords only.
-/

namespace AccountVault

open Program

/-- The same bytes, or the texts of documents that differ in the content of passwords only. -/
def AlikeButSecrets (body body' : Bytes) : Prop :=
  body = body' ∨ ∃ d e : Document, Document.parse body = .ok d ∧ Document.parse body' = .ok e ∧
    d.SameOutline e

theorem kindred_alikeButSecrets : Kindred Document.Twin Account.Twin AlikeButSecrets := by
  apply Kindred.twins
  · rintro body body' (rfl | ⟨d, e, hd, he, outline⟩)
    · exact .refl _
    · exact .of_parse hd he outline
  · intro d e twin
    exact .inr ⟨_, _, Document.parse_write_reread twin.readable,
      Document.parse_write_reread twin.readable', twin.outline.withAccounts_reread⟩

variable {location : Location} {bodies : Bytes → Bytes → Prop}

theorem Reply.matches_ofAttempt_twins {values : AccountAnswer → AccountAnswer → Prop}
    {x y : Attempt AccountAnswer} (h : Matches location bodies (Concur values) x.run y.run)
    (plain : ∀ a b, values a b → a.redacted = b.redacted) :
    Matches location bodies Reply.Twin (ofAttempt .account x) (ofAttempt .account y) := by
  apply h.bind
  intro left right concur
  cases concur with
  | ok hv => exact .done (.account (plain _ _ hv))
  | error failure => exact .done (.failed failure)

theorem Operation.matches_run_twins {service service' : Service} {operation operation' : Operation}
    (kindred : Kindred Document.Twin Account.Twin bodies)
    (place : service.location = service'.location)
    (keys : service.key.isSome = service'.key.isSome) (twin : operation.Twin operation')
    (readable : operation.Readable) :
    Matches service.location bodies Reply.Twin (operation.run service)
      (operation'.run service') := by
  obtain ⟨location, key⟩ := service
  obtain ⟨_, key'⟩ := service'
  obtain rfl := place
  have same : ∀ a b : AccountAnswer, a = b → a.redacted = b.redacted := fun a b h => by rw [h]
  cases twin with
  | create id h =>
    exact Reply.matches_ofAttempt_twins (Service.matches_create kindred
      (Service.matches_sealInput_twins keys h readable) Service.redacted_answer_single id)
      fun _ _ h => h
  | update id h =>
    exact Reply.matches_ofAttempt_twins (Service.matches_update kindred
      (Service.matches_sealInput_twins keys h readable) Service.redacted_answer_single id)
      fun _ _ h => h
  | get id => exact Reply.matches_ofAttempt_twins (Service.matches_get kindred id) same
  | delete id => exact Reply.matches_ofAttempt_twins (Service.matches_delete kindred id) same
  | list => exact Reply.matches_ofAttempt_twins (Service.matches_list kindred) same

def Operation.shownInput? : Operation → Option String
  | create _ input | update _ input => some input.shown
  | _ => none

theorem Operation.Twin.shownInput? {operation operation' : Operation}
    (h : operation.Twin operation') : operation.shownInput? = operation'.shownInput? := by
  cases h with
  | create id h => exact congrArg some h.shown
  | update id h => exact congrArg some h.shown
  | _ => rfl

namespace Session

/-- The same step: the same faults, and an operation that differs in its password only. -/
inductive SameStep : Faults × Action → Faults × Action → Prop
  | mk (faults : Faults) {operation operation' : Operation} (twin : operation.Twin operation') :
    SameStep (faults, .operation operation) (faults, .operation operation')

inductive Result.Twin : Result → Result → Prop
  | reply {r r' : Reply} (h : r.Twin r') : Twin (.reply r) (.reply r')
  | cutOff : Twin .cutOff .cutOff

theorem Result.Twin.of_rel {x y : Option Reply} (h : Option.Rel Reply.Twin x y) :
    Twin (x.elim .cutOff .reply) (y.elim .cutOff .reply) := by
  cases h with
  | some h => exact .reply h
  | none => exact .cutOff

def Action.shownInput? : Action → Option String
  | operation o => o.shownInput?
  | _ => none

structure Report.Twin (location : Location) (r r' : Report) : Prop where
  result : r.result.Twin r'.result
  events : r.events = r'.events
  calls : r.state.calls = r'.state.calls
  etag : r.state.store.etag? location = r'.state.store.etag? location
  body : Option.Rel AlikeButSecrets (r.state.store.body? location) (r'.state.store.body? location)

def Occurrence.draws (x : Occurrence) : List (Nat × Except IvError Bytes) :=
  x.exchanges.filterMap Exchange.drawn?

variable {session session' : Session} {s t : Scripted}

theorem Abreast.twin {r r' : Report} (result : r.result.Twin r'.result)
    (events : r.events = r'.events)
    (paired : Scripted.Paired location AlikeButSecrets r.state r'.state) : r.Twin location r' :=
  ⟨result, events, paired.calls, paired.etag?_eq, paired.body?_rel⟩

theorem step_operation_result (faults : Faults) (operation : Operation) :
    (session.step faults (.operation operation) s).result =
      ((operation.run session.site.service).run (Scripted.backend faults)
        { s with calls := [] }).value.elim .cutOff .reply := by
  simp only [step, perform]
  cases ((operation.run session.site.service).run _ _).value <;> rfl

theorem step_twins (place : session.location = session'.location)
    (keys : session.site.service.key.isSome = session'.site.service.key.isSome)
    (abreast : Abreast session.location AlikeButSecrets s t) {step step' : Faults × Action}
    (same : SameStep step step') (readable : step.2.Readable) :
    let r := session.step step.1 step.2 s
    let r' := session'.step step'.1 step'.2 t
    r.Twin session.location r' ∧ Abreast session.location AlikeButSecrets r.state r'.state ∧
      (session.exchanges step.1 step.2 s).filterMap Exchange.drawn? =
        (session'.exchanges step'.1 step'.2 t).filterMap Exchange.drawn? := by
  obtain ⟨faults, twin⟩ := same
  have refl : ∀ body, AlikeButSecrets body body := fun _ => .inl rfl
  have alongside := Operation.matches_run_twins kindred_alikeButSecrets place keys twin readable
  obtain ⟨value, events, paired⟩ := alongside.run refl faults abreast
  refine ⟨Abreast.twin ?_ events paired, ?_, alongside.draws refl faults abreast⟩
  · rw [step_operation_result, step_operation_result]
    exact .of_rel value
  · exact ⟨paired.prepared, paired.drawn, rfl, paired.version, paired.object⟩

theorem run_twins (place : session.location = session'.location)
    (keys : session.site.service.key.isSome = session'.site.service.key.isSome)
    {steps steps' : List (Faults × Action)} (same : List.Forall₂ SameStep steps steps')
    (readable : ∀ step ∈ steps, step.2.Readable)
    (abreast : Abreast session.location AlikeButSecrets s t) :
    List.Forall₂ (Report.Twin session.location) (session.run steps s) (session'.run steps' t) ∧
      List.Forall₂ (fun x y => x.draws = y.draws) (session.history steps s)
        (session'.history steps' t) := by
  induction same generalizing s t with
  | nil => exact ⟨.nil, .nil⟩
  | cons first _ ih =>
    obtain ⟨twin, abreast, draws⟩ := step_twins place keys abreast first (readable _ (by simp))
    obtain ⟨reports, histories⟩ := ih (fun x hx => readable x (by simp [hx])) abreast
    exact ⟨.cons twin reports, .cons draws histories⟩

end Session

/-- Passwords that are sent and the key show in sealed passwords only. -/
theorem secrets_flow_into_passwords_only {session session' : Session} {key key' : DataKey}
    (place : session.location = session'.location)
    (configured : session.site.service.key = some key)
    (configured' : session'.site.service.key = some key') {s t : Scripted}
    (start : Session.Abreast session.location Eq s t)
    {steps steps' : List (Faults × Session.Action)}
    (same : List.Forall₂ Session.SameStep steps steps')
    (readable : ∀ step ∈ steps, step.2.Readable) :
    List.Forall₂ (Session.Report.Twin session.location) (session.run steps s)
        (session'.run steps' t) ∧
      List.Forall₂ (fun x y => x.draws = y.draws) (session.history steps s)
        (session'.history steps' t) ∧
      List.Forall₂ (fun x y => x.2.shownInput? = y.2.shownInput?) steps steps' ∧
      session.site.service.shown = session'.site.service.shown ∧ key.shown = key'.shown := by
  have abreast : Session.Abreast session.location AlikeButSecrets s t :=
    start.mono fun _ _ same => .inl same
  have keys : session.site.service.key.isSome = session'.site.service.key.isSome := by
    rw [configured, configured']
    rfl
  obtain ⟨reports, histories⟩ := Session.run_twins place keys same readable abreast
  refine ⟨reports, histories, same.imp fun x y h => ?_, ?_, rfl⟩
  · obtain ⟨faults, twin⟩ := h
    exact twin.shownInput?
  · unfold Service.shown
    rw [configured, configured']
    rfl

def keyedBy (byte : UInt8) : Session :=
  ⟨⟨⟨⟨"bucket", "key"⟩, some ⟨List.replicate 32 byte, List.length_replicate⟩⟩, none, "", ⟨[]⟩⟩⟩

def sending (password : String) : List (Faults × Session.Action) :=
  [({}, .operation (.create "c" ⟨.integer 3, "m", password⟩)),
    ({ get := some .untagged }, .operation (.update "a" ⟨.integer 1, "k", password⟩)),
    ({}, .operation .list)]

theorem secrets_flow_into_passwords_only_sending :
    List.Forall₂ (Session.Report.Twin ⟨"bucket", "key"⟩)
      ((keyedBy 0).run (sending "p") resting.state)
      ((keyedBy 1).run (sending "qq") resting.state) := by
  have start : Session.Abreast (keyedBy 0).location Eq resting.state resting.state :=
    ⟨rfl, rfl, rfl, rfl, .some ⟨rfl, rfl⟩⟩
  have same : List.Forall₂ Session.SameStep (sending "p") (sending "qq") :=
    .cons (.mk _ (.create "c" ⟨rfl, rfl⟩)) (.cons (.mk _ (.update "a" ⟨rfl, rfl⟩))
      (.cons (.mk _ .list) .nil))
  have readable : ∀ step ∈ sending "p", step.2.Readable := by
    simp [sending, Session.Action.Readable, Operation.Readable, Json.Number.Readable,
      Json.Number.InRange, Json.Number.unsignedBound]
  have place : (keyedBy 0).location = (keyedBy 1).location := rfl
  exact (secrets_flow_into_passwords_only place rfl rfl start same readable).1

end AccountVault
