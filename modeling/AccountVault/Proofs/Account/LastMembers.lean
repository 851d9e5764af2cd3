import Mathlib
import AccountVault.Session
import AccountVault.Proofs.Http.Agreement
import AccountVault.Proofs.Json.Meanings
import AccountVault.Proofs.Session.AllOrNothing

/-!
# Three members of a body count

Of the body of a request to create or update an account, the last member of each of three names is
looked at and nothing else. So bodies that agree on these cannot be told apart afterwards, by what
is answered, by what is stored or by what is logged, however else they differ. This is shown for a
direct operation with its body as a text, for one HTTP request, and for a session of such requests,
the last by induction over its steps.
-/

namespace AccountVault

open Json

namespace Json.Value

variable {name : String} {v : Value} {members : List (String × Value)}

def Last (name : String) (v : Value) (members : List (String × Value)) : Prop :=
  ∃ before after, members = before ++ (name, v) :: after ∧ ∀ m ∈ after, m.1 ≠ name

theorem lastNamed?_eq_some_iff : lastNamed? name members = some v ↔ Last name v members := by
  unfold lastNamed?
  constructor
  · intro h
    obtain ⟨⟨written, _⟩, found, rfl⟩ := Option.map_eq_some_iff.1 h
    obtain ⟨same, after, before, parts, others⟩ := List.find?_eq_some_iff_append.1 found
    obtain rfl : written = name := by simpa using same
    refine ⟨before.reverse, after.reverse, ?_, fun m hm => ?_⟩
    · simpa using congrArg List.reverse parts
    · simpa using others m (List.mem_reverse.1 hm)
  · rintro ⟨before, after, rfl, others⟩
    refine Option.map_eq_some_iff.2 ⟨(name, v), ?_, rfl⟩
    refine List.find?_eq_some_iff_append.2 ⟨by simp, after.reverse, before.reverse, by simp, ?_⟩
    intro m hm
    simpa using others m (List.mem_reverse.1 hm)

end Json.Value

open Value (Last)

namespace AccountInput

variable {input : AccountInput} {members members' : List (String × Value)}

/-- The input is what the last members of the three names say. -/
structure FoundIn (input : AccountInput) (members : List (String × Value)) : Prop where
  accountType : Last "accountType" (.number input.accountType) members
  apiKey : Last "apiKey" (.text input.apiKey) members
  apiPassword : Last "apiPassword" (.text input.apiPassword) members

def SameLast (members members' : List (String × Value)) : Prop :=
  ∀ name ∈ ["accountType", "apiKey", "apiPassword"], ∀ v, Last name v members ↔ Last name v members'

theorem number?_eq_some_iff {v : Value} {n : Number} : v.number? = some n ↔ v = .number n := by
  cases v <;> simp [Value.number?]

theorem text?_eq_some_iff {v : Value} {s : String} : v.text? = some s ↔ v = .text s := by
  cases v <;> simp [Value.text?]

theorem ofValue_eq_ok_iff {body : Value} :
    ofValue body = .ok input ↔ ofValue? body = some input := by
  unfold ofValue
  cases ofValue? body <;> simp

theorem ofValue_eq_error {body : Value} (h : ∀ input, ofValue body ≠ .ok input) :
    ofValue body = .error .invalidInput := by
  unfold ofValue at h ⊢
  cases read : ofValue? body with
  | none => rfl
  | some input => exact absurd (by rw [read]) (h input)

theorem ofValue_record_eq_ok_iff :
    ofValue (.record members) = .ok input ↔ input.FoundIn members := by
  rw [ofValue_eq_ok_iff]
  simp only [ofValue?, Value.member?, bind, Option.bind_eq_some_iff, Value.lastNamed?_eq_some_iff,
    number?_eq_some_iff, text?_eq_some_iff, pure, Option.some.injEq]
  constructor
  · rintro ⟨_, type, n, rfl, _, key, k, rfl, _, password, p, rfl, rfl⟩
    exact ⟨type, key, password⟩
  · rintro ⟨type, key, password⟩
    exact ⟨_, type, _, rfl, _, key, _, rfl, _, password, _, rfl, rfl⟩

theorem SameLast.foundIn (agree : SameLast members members') (h : input.FoundIn members) :
    input.FoundIn members' where
  accountType := (agree _ (by simp) _).1 h.accountType
  apiKey := (agree _ (by simp) _).1 h.apiKey
  apiPassword := (agree _ (by simp) _).1 h.apiPassword

theorem SameLast.symm (agree : SameLast members members') : SameLast members' members :=
  fun name listed v => (agree name listed v).symm

theorem SameLast.ofValue_eq (agree : SameLast members members') :
    ofValue (.record members) = ofValue (.record members') := by
  cases read : ofValue (.record members) with
  | ok input =>
    have found := agree.foundIn (ofValue_record_eq_ok_iff.1 read)
    exact (ofValue_record_eq_ok_iff.2 found).symm
  | error failure =>
    have missing : ∀ input, ofValue (.record members') ≠ .ok input := by
      intro input read'
      have found := agree.symm.foundIn (ofValue_record_eq_ok_iff.1 read')
      rw [ofValue_record_eq_ok_iff.2 found] at read
      cases read
    rw [ofValue_eq_error missing, ← read]
    exact ofValue_eq_error fun input read' => by simp [read] at read'

end AccountInput

open AccountInput (SameLast)

theorem Operation.readInput_eq_of_agree {members members' : List (String × Value)}
    {text text' : Bytes} (spelled : SpellsRecord members text)
    (spelled' : SpellsRecord members' text') (agree : SameLast members members') :
    readInput text = readInput text' := by
  simp only [readInput, spelled.read?, spelled'.read?, agree.ofValue_eq]

namespace Http

variable {request request' : Request}

/-- The requests are the same but for their bodies, which bring records that agree. -/
structure Request.Twin (request request' : Request) : Prop where
  method : request.method = request'.method
  target : request.target = request'.target
  headers : request.headers = request'.headers
  bodies : ∃ members members', request.Brings (.record members) ∧
    request'.Brings (.record members') ∧ SameLast members members'

theorem readInput_eq_of_twin (twin : request.Twin request') :
    readInput request = readInput request' := by
  obtain ⟨members, members', brings, brings', agree⟩ := twin.bodies
  simp only [readInput, Request.jsonBody_eq_ok_iff.2 brings, Request.jsonBody_eq_ok_iff.2 brings',
    agree.ofValue_eq]

theorem Site.handle_eq_of_twin (site : Site) (twin : request.Twin request') :
    site.handle request = site.handle request' := by
  have input := readInput_eq_of_twin twin
  have account : ∀ captures,
      site.handleAccount captures request = site.handleAccount captures request' := by
    intro captures
    simp only [handleAccount, createAccount, updateAccount, input, twin.method]
  have found : ∀ found, site.handleFound found request = site.handleFound found request' := by
    intro found
    simp only [handleFound, reading, account, twin.method]
  simp only [handle, found, twin.target]

theorem Site.answer_eq_of_twin (twin : request.Twin request') (handled : Option Response) :
    Site.answer request handled = Site.answer request' handled := by
  simp only [Site.answer, Response.coded, Request.headerValues, twin.headers]

end Http

namespace Session

variable {session : Session}

/-- A step for what a text asks for: the operation if it can be read, and else a refusal. -/
def submit (session : Session) (faults : Faults) (asked : Except Reply Operation)
    (state : Scripted) :
    Report :=
  match asked with
  | .ok operation => session.step faults (.operation operation) state
  | .error reply => refuse reply state

theorem step_eq_of_twin (session : Session) (faults : Faults) (state : Scripted)
    {request request' : Http.Request} (twin : request.Twin request') :
    session.step faults (.request request) state =
      session.step faults (.request request') state := by
  simp only [step, exchange, session.site.handle_eq_of_twin twin, Http.Site.answer_eq_of_twin twin]

inductive TwinStep : Faults × Action → Faults × Action → Prop
  | same (step : Faults × Action) : TwinStep step step
  | twin {request request' : Http.Request} (faults : Faults) (h : request.Twin request') :
    TwinStep (faults, .request request) (faults, .request request')

theorem run_eq_of_twinSteps {steps steps' : List (Faults × Action)}
    (h : List.Forall₂ TwinStep steps steps') (state : Scripted) :
    session.run steps state = session.run steps' state := by
  induction h generalizing state with
  | nil => rfl
  | cons first others ih =>
    have report : ∀ {step step' : Faults × Action}, TwinStep step step' →
        session.step step.1 step.2 state = session.step step'.1 step'.2 state := by
      rintro _ _ (_ | ⟨faults, twin⟩)
      · rfl
      · exact session.step_eq_of_twin faults state twin
    simp only [run, report first, ih]

end Session

/-- An input is read from a record exactly if the last members of three names are a number and two
texts, and it is these; every other value is refused. Bodies that agree on the three members have
the same report when an account is created or updated from them, with the same stored bytes, whether
the body is given with the operation or in a request, and so do whole sessions of such requests. -/
theorem three_members_count :
    (∀ members text, SpellsRecord members text → Value.read? text = some (.record members)) ∧
    (∀ members input,
      AccountInput.ofValue (.record members) = .ok input ↔ input.FoundIn members) ∧
    (∀ body, (∀ members (input : AccountInput), body = .record members → ¬input.FoundIn members) →
      AccountInput.ofValue body = .error .invalidInput ∧
        Failure.kind .invalidInput = .badRequest) ∧
    (∀ (session : Session) (faults : Faults) (state : Scripted) members members',
      SameLast members members' →
      (∀ text text', SpellsRecord members text → SpellsRecord members' text' → ∀ id,
        session.submit faults (Operation.readCreate id text) state =
            session.submit faults (Operation.readCreate id text') state ∧
          session.submit faults (Operation.readUpdate id text) state =
            session.submit faults (Operation.readUpdate id text') state) ∧
      ∀ method target headers body body',
        let request : Http.Request := ⟨method, target, headers, body⟩
        let request' : Http.Request := ⟨method, target, headers, body'⟩
        request.Brings (.record members) → request'.Brings (.record members') →
        session.step faults (.request request) state =
          session.step faults (.request request') state) ∧
    ∀ (session : Session) steps steps' state, List.Forall₂ Session.TwinStep steps steps' →
      session.run steps state = session.run steps' state := by
  refine ⟨fun members text h => h.read?, fun members input => AccountInput.ofValue_record_eq_ok_iff,
    fun body missing => ⟨?_, rfl⟩, fun session faults state members members' agree => ⟨?_, ?_⟩,
    fun session steps steps' state h => Session.run_eq_of_twinSteps h state⟩
  · apply AccountInput.ofValue_eq_error
    intro input read
    cases body with
    | record members =>
      exact missing members input rfl (AccountInput.ofValue_record_eq_ok_iff.1 read)
    | _ => cases read
  · intro text text' spelled spelled' id
    have same := Operation.readInput_eq_of_agree spelled spelled' agree
    simp only [Operation.readCreate, Operation.readUpdate, same, and_self]
  · intro method target headers body body' request request' brings brings'
    exact session.step_eq_of_twin faults state
      ⟨rfl, rfl, rfl, members, members', brings, brings', agree⟩

theorem three_members_count_duplicates :
    let text := Utf8.encode
      "\x7b\"apiKey\":\"o\",\"accountType\":7,\"apiKey\":\"k\",\"apiPassword\":\"p\",\"o\":[]\x7d"
    let text' := Utf8.encode
      " \x7b\"apiPassword\":\"\\u0070\",\"accountType\":null,\"accountType\":7,\"apiKey\":\"k\"\x7d"
    Operation.readInput text = .ok ⟨.integer 7, "k", "p"⟩ ∧
      ∀ (session : Session) faults id state,
        session.submit faults (Operation.readCreate id text) state =
          session.submit faults (Operation.readCreate id text') state := by
  intro text text'
  let members : List (String × Value) :=
    [("apiKey", .text "o"), ("accountType", .number (.integer 7)),
    ("apiKey", .text "k"), ("apiPassword", .text "p"), ("o", .list [])]
  let members' : List (String × Value) := [("apiPassword", .text "p"), ("accountType", .null),
    ("accountType", .number (.integer 7)), ("apiKey", .text "k")]
  have first := Gap.first blanks_nil
  have next := Gap.next blanks_nil blanks_nil
  have type : SpellsChars "accountType".toList _ := spellsChars_visible (by simp)
  have key : SpellsChars "apiKey".toList _ := spellsChars_visible (by simp)
  have password : SpellsChars "apiPassword".toList _ := spellsChars_visible (by simp)
  have o : SpellsChars "o".toList _ := spellsChars_visible (by simp)
  have k : SpellsChars "k".toList _ := spellsChars_visible (by simp)
  have p : SpellsChars "p".toList _ := spellsChars_visible (by simp)
  have escaped : SpellsChars "p".toList _ :=
    .cons (.digits (.mk (a := 0x30) (b := 0x30) (c := 0x37) (d := 0x30) rfl rfl rfl rfl) rfl rfl)
      .nil
  have seven := Spells.number (.ofDigit 0x37 rfl)
  have spelled : SpellsRecord members text := by
    refine ⟨_, [], _, [], blanks_nil, .record (.member first key blanks_nil blanks_nil (.text o)
      (.member next type blanks_nil blanks_nil seven
      (.member next key blanks_nil blanks_nil (.text k)
      (.member next password blanks_nil blanks_nil (.text p)
      (.member next o blanks_nil blanks_nil (.list (.noItem true) blanks_nil) (.noMember false))))))
      blanks_nil, blanks_nil, by decide +kernel, rfl⟩
  have spelled' : SpellsRecord members' text' := by
    refine ⟨_, [0x20], _, [], by simp [Blanks, Scan.isBlank],
      .record (.member first password blanks_nil blanks_nil
      (.text escaped) (.member next type blanks_nil blanks_nil .null
      (.member next type blanks_nil blanks_nil seven
      (.member next key blanks_nil blanks_nil (.text k) (.noMember false))))) blanks_nil,
        blanks_nil,
      by decide +kernel, rfl⟩
  have agree : SameLast members members' := by
    intro name listed v
    rw [← Value.lastNamed?_eq_some_iff, ← Value.lastNamed?_eq_some_iff]
    simp only [List.mem_cons, List.not_mem_nil, or_false] at listed
    rcases listed with rfl | rfl | rfl <;> rfl
  obtain ⟨read, found, -, alike, -⟩ := three_members_count
  constructor
  · have input : AccountInput.ofValue (.record members) = .ok ⟨.integer 7, "k", "p"⟩ := by
      exact (found _ _).2 ⟨Value.lastNamed?_eq_some_iff.1 rfl, Value.lastNamed?_eq_some_iff.1 rfl,
        Value.lastNamed?_eq_some_iff.1 rfl⟩
    rw [Operation.readInput, read _ _ spelled]
    simp only [input]
  · intro session faults id state
    exact ((alike session faults state _ _ agree).1 text text' spelled spelled' id).1

end AccountVault
