import Mathlib
import AccountVault.Proofs.Account.PasswordSpot
import AccountVault.Proofs.Security.Invisible
import AccountVault.Proofs.Session.AllOrNothing
import AccountVault.Proofs.Session.WriteRequests

/-!
# What refusals tell of a stored password

A stored document that cannot be read is refused with a message that says what was found and where.
Two documents are compared here that differ in one password only, as it is written. Texts in its
place, if they are of the same length, give the same answers, refusals included: a message counts
lines and columns, and a text has no line of its own. A number in its place is refused, and the
message says which number it is.
-/

namespace AccountVault

open Json Program

namespace Json

/-- A message depends on where the lines of a text end and not on what they say. -/
theorem Fault.message_eq_of_lines {text text' : Bytes}
    (lines : text.map (· == 0x0a) = text'.map (· == 0x0a)) (fault : Fault) :
    fault.message text = fault.message text' := by
  have long : text.length = text'.length := by simpa using congrArg List.length lines
  have taken : ∀ n, (text.take n).map (· == 0x0a) = (text'.take n).map (· == 0x0a) := by
    intro n
    rw [List.map_take, List.map_take, lines]
  have line_eq : ∀ n, line text n = line text' n := by
    intro n
    have counted : ∀ bytes : Bytes, bytes.count 0x0a = (bytes.map (· == 0x0a)).countP id := by
      intro bytes
      rw [List.countP_map]
      rfl
    rw [line, line, counted, counted, taken]
  have column_eq : ∀ n, column text n = column text' n := by
    intro n
    have counted : ∀ bytes : Bytes, (bytes.reverse.takeWhile (· ≠ 0x0a)).length =
        ((bytes.map (· == 0x0a)).reverse.takeWhile (! ·)).length := by
      intro bytes
      rw [← List.map_reverse, List.takeWhile_map, List.length_map]
      congr 2
      funext byte
      simp [BEq.beq]
    rw [column, column, counted, counted, taken]
  rw [message, message, long, line_eq, column_eq]

theorem SpellsUnit.ne_line {n : Nat} {digits : Bytes} (h : SpellsUnit n digits) :
    ∀ byte ∈ digits, byte ≠ 0x0a := by
  obtain ⟨ha, hb, hc, hd⟩ := h
  have refused : ∀ byte w, Scan.hexValue? byte = some w → byte ≠ 0x0a := by
    rintro byte w digit rfl
    cases digit
  simp only [List.forall_mem_cons]
  exact ⟨refused _ _ ha, refused _ _ hb, refused _ _ hc, refused _ _ hd, by simp⟩

theorem SpellsChar.ne_line {c : Char} {bytes : Bytes} (h : SpellsChar c bytes) :
    ∀ byte ∈ bytes, byte ≠ 0x0a := by
  cases h with
  | plain quote backslash visible =>
    rintro byte hb rfl
    obtain ⟨-, -, high⟩ := visible_of_mem_utf8EncodeChar quote backslash visible _ hb
    exact high (by decide)
  | @letter byte value h =>
    have other : byte ≠ 0x0a := by
      rintro rfl
      cases h
    simp [other]
  | digits h lead trail => simpa using h.ne_line
  | pair h lead h' trail =>
    have first := h.ne_line
    have second := h'.ne_line
    simp only [List.forall_mem_cons, List.forall_mem_append]
    exact ⟨by decide, by decide, first, by decide, by decide, second⟩

theorem SpellsChars.ne_line {cs : List Char} {bytes : Bytes} (h : SpellsChars cs bytes) :
    ∀ byte ∈ bytes, byte ≠ 0x0a := by
  induction h with
  | nil => simp
  | cons h _ ih => exact List.forall_mem_append.2 ⟨h.ne_line, ih⟩

theorem Spells.lines_text {s : String} {bytes : Bytes} (h : Spells (.value (.text s)) bytes) :
    bytes.map (· == 0x0a) = List.replicate bytes.length false := by
  cases h with
  | text hk =>
    rw [List.map_eq_replicate_iff]
    simp only [beq_eq_false_iff_ne]
    exact List.forall_mem_cons.2 ⟨by decide, List.forall_mem_append.2 ⟨hk.ne_line, by simp⟩⟩

end Json

theorem DocumentStore.readAlike_spot {before : Bytes} (spot : PasswordSpot before) {s s' : String}
    {text text' : Bytes} (h : Spells (.value (.text s)) text)
    (h' : Spells (.value (.text s')) text') (long : text.length = text'.length) (after : Bytes) :
    ReadAlike (before ++ (text ++ after)) (before ++ (text' ++ after)) := by
  rcases Document.parse_alike spot h h' long after with
    ⟨fault, refused, refused'⟩ | ⟨d, e, read, read', outline⟩
  · have lines : (before ++ (text ++ after)).map (· == 0x0a) =
        (before ++ (text' ++ after)).map (· == 0x0a) := by
      simp only [List.map_append, h.lines_text, h'.lines_text, long]
    rw [ReadAlike, reading_of_parse_error (spot.isBlankBody _) refused,
      reading_of_parse_error (spot.isBlankBody _) refused', fault.message_eq_of_lines lines]
    exact .error _
  · exact .of_parse read read' outline

theorem Http.Site.operation?_bodiless {site : Site} {request : Request} {operation : Operation}
    (h : site.operation? request = some operation)
    (bodiless : request.method = "GET" ∨ request.method = "DELETE") :
    operation = .list ∨ ∃ id, operation = .get id ∨ operation = .delete id := by
  rcases of_operation? h with ⟨list, -⟩ | ⟨found, id, -, -, -, asks⟩
  · exact .inl list
  · rcases bodiless with get | delete
    · have asked : Operation.get id = operation := by
        simpa [Request.onAccount?, get] using asks
      exact .inr ⟨id, .inl asked.symm⟩
    · have asked : Operation.delete id = operation := by
        simpa [Request.onAccount?, delete] using asks
      exact .inr ⟨id, .inr asked.symm⟩

theorem Reply.matches_ofAttempt {location : Location} {bodies : Bytes → Bytes → Prop}
    {x y : Attempt AccountAnswer} (h : Matches location bodies (Concur Eq) x.run y.run) :
    Matches location bodies Eq (ofAttempt .account x) (ofAttempt .account y) := by
  apply h.bind
  intro left right same
  obtain rfl := same.eq
  cases left with
  | ok answer => exact .done rfl
  | error failure => exact .done rfl

theorem Http.Site.matches_handle_bodiless {site : Site} {request : Request}
    (bodiless : request.method = "GET" ∨ request.method = "DELETE") :
    Matches site.service.location DocumentStore.ReadAlike Eq (site.handle request)
      (site.handle request) := by
  cases found : site.operation? request with
  | none => exact (silent_handle found).matches_self
  | some operation =>
    have runs : Matches site.service.location DocumentStore.ReadAlike Eq
        (operation.run site.service) (operation.run site.service) := by
      rcases operation?_bodiless found bodiless with rfl | ⟨id, rfl | rfl⟩
      · exact Reply.matches_ofAttempt (Service.matches_list kindred_readAlike)
      · exact Reply.matches_ofAttempt (Service.matches_get kindred_readAlike id)
      · exact Reply.matches_ofAttempt (Service.matches_delete kindred_readAlike id)
    rw [handle_of_operation? found]
    apply runs.bind
    rintro reply _ rfl
    exact (silent_conclude reply).matches_self

namespace Session

variable {session : Session} {request : Http.Request} {state : Scripted} {body body' : Bytes}

def answer (session : Session) (faults : Faults) (request : Http.Request) (state : Scripted)
    (body : Bytes) : Http.Response :=
  let stored : Scripted :=
    { state with store := state.store.insert session.location body, calls := [] }
  Http.Site.answer request
    ((session.site.handle request).run (Scripted.backend faults) stored).value

theorem step_request_stored (faults : Faults) :
    (session.step faults (.request request)
      { state with store := state.store.insert session.location body }).result =
        .response (session.answer faults request state body) := rfl

theorem answer_of_matches {bodies : Bytes → Bytes → Prop}
    (h : Matches session.location bodies Eq (session.site.handle request)
      (session.site.handle request))
    (refl : ∀ body, bodies body body) (related : bodies body body') (faults : Faults) :
    session.answer faults request state body = session.answer faults request state body' := by
  have paired : Scripted.Paired session.location bodies
      { state with store := state.store.insert session.location body, calls := [] }
      { state with store := state.store.insert session.location body', calls := [] } := by
    refine ⟨rfl, rfl, rfl, rfl, ?_⟩
    rw [MemoryStore.objects_insert_self, MemoryStore.objects_insert_self]
    exact .some ⟨related, rfl⟩
  obtain ⟨value, -, -⟩ := h.run refl faults paired
  exact congrArg (Http.Site.answer request) (eq_of_rel value)

theorem status_answer_unread {operation : Operation}
    (asks : session.site.operation? request = some operation) {failure : Failure}
    (unread : DocumentStore.reading body = .error failure) (state : Scripted) :
    (session.answer {} request state body).status = failure.kind.status := by
  have returns : ({} : Faults).Returns := ⟨by simp, by simp, by simp⟩
  have stored : (state.store.insert session.location body).body? session.location = some body := by
    rw [MemoryStore.body?, MemoryStore.objects_insert_self]
    rfl
  obtain ⟨direct, -⟩ := step_unread (Http.Site.onAccounts_of_operation? asks)
    (show { state with store := state.store.insert session.location body }.store.body?
      session.location = some body from stored) unread
  obtain ⟨-, reply, response, replied, sent, tells⟩ := step_request_eq asks returns
    { state with store := state.store.insert session.location body }
  obtain rfl := Result.reply.inj (direct.symm.trans replied)
  obtain rfl := Result.response.inj ((step_request_stored {}).symm.trans sent)
  exact tells.1

end Session

inductive Json.Term.SameScalar : Term → Term → Prop
  | texts (s s' : String) : SameScalar (.text s) (.text s')
  | numbers (n n' : Numeral) : SameScalar (.number n) (.number n')
  | booleans (b b' : Bool) : SameScalar (.boolean b) (.boolean b')

theorem Json.Spells.boolean_eq {b b' : Bool} {text text' : Bytes}
    (h : Spells (.value (.boolean b)) text) (h' : Spells (.value (.boolean b')) text')
    (long : text.length = text'.length) : text = text' := by
  cases h <;> cases h'
  · rfl
  · cases long
  · cases long
  · rfl

/-- Whatever is written in the place of a password, another of its type and length gives the same
status. It gives the same answer too, also to a request that is refused for what is stored, unless
the two are numbers. -/
theorem stored_password_told_as_number_only (session : Session) (state : Scripted)
    {before text text' : Bytes} (spot : PasswordSpot before) {t t' : Term} (same : t.SameScalar t')
    (h : Spells (.value t) text) (h' : Spells (.value t') text')
    (long : text.length = text'.length) (after : Bytes) {request : Http.Request}
    (bodiless : request.method = "GET" ∨ request.method = "DELETE") :
    let answer := fun faults password =>
      session.answer faults request state (before ++ (password ++ after))
    (answer {} text).status = (answer {} text').status ∧
      ((∀ n, t ≠ .number n) → ∀ faults, answer faults text = answer faults text') := by
  intro answer
  cases same with
  | texts s s' =>
    have alike := DocumentStore.readAlike_spot spot h h' long after
    have equal : ∀ faults, answer faults text = answer faults text' :=
      Session.answer_of_matches (Http.Site.matches_handle_bodiless bodiless)
        DocumentStore.ReadAlike.refl alike
    exact ⟨congrArg Http.Response.status (equal {}), fun _ => equal⟩
  | booleans b b' =>
    obtain rfl := h.boolean_eq h' long
    exact ⟨rfl, fun _ _ => rfl⟩
  | numbers n n' =>
    refine ⟨?_, fun other => absurd rfl (other n)⟩
    cases h
    cases h'
    obtain ⟨fault, refused⟩ := Document.parse_number spot n after
    obtain ⟨fault', refused'⟩ := Document.parse_number spot n' after
    cases found : session.site.operation? request with
    | none =>
      have silent : Matches session.location (fun _ _ => True) Eq (session.site.handle request)
          (session.site.handle request) := (Http.Site.silent_handle found).matches_self
      exact congrArg Http.Response.status
        (Session.answer_of_matches silent (fun _ => trivial) trivial {})
    | some operation =>
      have status := Session.status_answer_unread found
        (DocumentStore.reading_of_parse_error (spot.isBlankBody _) refused) state
      have status' := Session.status_answer_unread found
        (DocumentStore.reading_of_parse_error (spot.isBlankBody _) refused') state
      exact status.trans status'.symm

def unkeyed : Session := ⟨⟨⟨⟨"bucket", "key"⟩, none⟩, none, "", Http.Router.below ""⟩⟩

theorem passwordSpot_complete : PasswordSpot (Utf8.encode
    "\x7b\"a\":\x7b\"accountType\":1,\"apiKey\":\"k\",\"apiPassword\":") := by
  have id : SpellsChars "a".toList _ := spellsChars_visible (by simp)
  have type : SpellsChars "accountType".toList _ := spellsChars_visible (by simp)
  have key : SpellsChars "apiKey".toList _ := spellsChars_visible (by simp)
  have value : SpellsChars "k".toList _ := spellsChars_visible (by simp)
  have password : SpellsChars "apiPassword".toList _ := spellsChars_visible (by simp)
  have fields := Spells.member (.first blanks_nil) type blanks_nil blanks_nil
    (.number (.ofDigit 0x31 rfl)) (.member (.next blanks_nil blanks_nil) key blanks_nil blanks_nil
      (.text value) (.noMember false))
  have spot : PasswordSpot _ := .mk blanks_nil (.noMember true) (.first blanks_nil) id blanks_nil
    (.mk blanks_nil fields (.next blanks_nil blanks_nil) password blanks_nil blanks_nil)
  convert spot using 1
  decide +kernel

theorem stored_password_told_as_number_only_escaped :
    let request : Http.Request := ⟨"GET", "/a", [], []⟩
    let before := Utf8.encode
      "\x7b\"a\":\x7b\"accountType\":1,\"apiKey\":\"k\",\"apiPassword\":"
    let after := Utf8.encode ",\"apiKey\":2\x7d\x7d"
    unkeyed.answer {} request resting.state (before ++ (Utf8.encode "\"secret\"" ++ after)) =
      unkeyed.answer {} request resting.state (before ++ (Utf8.encode "\"\\u0070\"" ++ after)) := by
  intro request before after
  have plain : SpellsChars "secret".toList _ := spellsChars_visible (by simp)
  have escaped : SpellsChars "p".toList _ :=
    .cons (.digits (.mk (a := 0x30) (b := 0x30) (c := 0x37) (d := 0x30) rfl rfl rfl rfl) rfl rfl)
      .nil
  have h : Spells (.value (.text "secret")) (Utf8.encode "\"secret\"") := .text plain
  have h' : Spells (.value (.text "p")) (Utf8.encode "\"\\u0070\"") := .text escaped
  exact (stored_password_told_as_number_only unkeyed resting.state passwordSpot_complete
    (.texts _ _) h h' (by decide +kernel) after (.inl rfl)).2 (by simp) {}

/-- A number in the place of a password stands in the message of the refusal. -/
theorem stored_password_number_told :
    ∃ before after, ∃ n n' : Numeral, PasswordSpot before ∧ n.text.length = n'.text.length ∧
      let answer := fun n : Numeral => unkeyed.answer {} ⟨"GET", "/", [], []⟩ resting.state
        (before ++ (n.text ++ after))
      (answer n).status = 500 ∧ (answer n).body ≠ (answer n').body := by
  refine ⟨_, Utf8.encode "\x7d\x7d", .ofDigit 0x35 rfl, .ofDigit 0x36 rfl, passwordSpot_complete,
    rfl, ?_, ?_⟩
  · decide +kernel
  · decide +kernel

end AccountVault
