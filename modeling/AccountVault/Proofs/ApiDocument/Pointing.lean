import Mathlib
import AccountVault.Proofs.ApiDocument.Literal
import AccountVault.Proofs.Http.Addresses

/-!
# Where the documentation page points

The page names the address of the API document in a script, and the document is served under that
address. Three rules meet there: the address is escaped for markup but read as a literal, a request
is matched up to a query, and the last segment of its path is decoded before it is compared with the
name of the file. Main statement: which addresses the page gives as they are, and which of them get
the document. Names and base paths with characters that one of the rules changes are neither refused
nor encoded, so for these the page does not point at the document.
-/

namespace AccountVault

namespace Percent

/-- No percent sign has two hexadecimal digits behind it. -/
def Unescaped (text : List Char) : Prop :=
  ∀ before high low after, text = before ++ '%' :: high :: low :: after →
    Hex.digitValue? high = none ∨ Hex.digitValue? low = none

variable {bytes out : Bytes}

theorem Decodes.length_le (h : Decodes bytes out) : out.length ≤ bytes.length := by
  induction h with
  | nil => exact le_rfl
  | escape digits more ih =>
    simp only [List.length_cons]
    omega
  | keep bare more ih => exact Nat.succ_le_succ ih

theorem Decodes.byteOf?_eq_none (h : Decodes bytes out) (long : out.length = bytes.length)
    {before after : Bytes} {high low : UInt8}
    (parts : bytes = before ++ 0x25 :: high :: low :: after) :
    byteOf? high low = none := by
  induction h generalizing before with
  | nil => simp at parts
  | escape digits more ih =>
    have short := more.length_le
    simp only [List.length_cons] at long
    omega
  | keep bare more ih =>
    cases before with
    | nil =>
      obtain ⟨rfl, rfl⟩ := List.cons.inj parts
      exact bare rfl high low after rfl
    | cons first before => exact ih (Nat.succ.inj long) (List.cons.inj parts).2

theorem decode_append_of_forall_ne {first : Bytes} (h : ∀ byte ∈ first, byte ≠ 0x25)
    (rest : Bytes) :
    decode (first ++ rest) = first ++ decode rest := by
  induction first with
  | nil => rfl
  | cons byte first ih =>
    rw [List.cons_append, decode_keep fun sign => absurd sign (h byte (by simp)),
      ih fun b hb => h b (List.mem_cons_of_mem byte hb), List.cons_append]

theorem exists_of_digit {chars : List Char} {byte : UInt8} {tail : Bytes} {d : Nat}
    (parts : chars.flatMap String.utf8EncodeChar = byte :: tail)
    (digit : digitValue? byte = some d) :
    ∃ c rest, chars = c :: rest ∧ Hex.digitValue? c = some d ∧
      tail = rest.flatMap String.utf8EncodeChar := by
  have small : byte.toNat < 0x80 := by
    have ascii := Hex.toNat_lt_of_digitValue? digit
    rwa [Char.toNat_ofNat, if_pos (.inl (by have := byte.toNat_lt; omega))] at ascii
  cases chars with
  | nil => cases parts
  | cons c rest =>
    rw [List.flatMap_cons] at parts
    have same : byte.toNat = c.toNat := by
      have mem : byte ∈ String.utf8EncodeChar c := by
        cases written : String.utf8EncodeChar c with
        | nil => exact absurd (congrArg List.length written) (by simpa using c.utf8Size_pos.ne')
        | cons first others =>
          rw [written] at parts
          simp [(List.cons.inj parts).1]
      exact (Json.toNat_of_mem_utf8EncodeChar mem).resolve_right (by omega)
    have single : String.utf8EncodeChar c = [Json.asciiByte c] :=
      if_pos (by rw [← Char.toNat, ← same]; omega)
    rw [single] at parts
    refine ⟨c, rest, rfl, ?_, (List.cons.inj parts).2.symm⟩
    rwa [digitValue?, same, Char.ofNat_toNat] at digit

theorem decode_of_unescaped {chars : List Char} (h : Unescaped chars) :
    decode (chars.flatMap String.utf8EncodeChar) = chars.flatMap String.utf8EncodeChar := by
  induction chars with
  | nil => rfl
  | cons c chars ih =>
    have others := ih fun before high low after parts =>
      h (c :: before) high low after (by rw [parts]; rfl)
    rw [List.flatMap_cons]
    by_cases sign : c = '%'
    · subst sign
      have kept : decode (0x25 :: chars.flatMap String.utf8EncodeChar) =
          0x25 :: decode (chars.flatMap String.utf8EncodeChar) := by
        apply decode_keep
        intro _ high low tail parts
        by_contra digits
        obtain ⟨byte, read⟩ := Option.ne_none_iff_exists'.1 digits
        obtain ⟨x, first, read⟩ := Option.bind_eq_some_iff.1 read
        obtain ⟨y, second, -⟩ := Option.bind_eq_some_iff.1 read
        obtain ⟨a, rest, rfl, digit, parts'⟩ := exists_of_digit parts first
        obtain ⟨b, rest, rfl, digit', -⟩ := exists_of_digit parts'.symm second
        rcases h [] a b rest rfl with foreign | foreign
        · rw [foreign] at digit
          cases digit
        · rw [foreign] at digit'
          cases digit'
      exact kept.trans (congrArg _ others)
    · rw [decode_append_of_forall_ne _ _, others]
      rintro _ mem rfl
      rcases Json.toNat_of_mem_utf8EncodeChar mem with same | above
      · exact sign (Char.ext (UInt32.toNat_inj.1 same.symm))
      · exact absurd above (by decide)

theorem decodeText?_eq_self_iff {text : String} :
    decodeText? text = some text ↔ Unescaped text.toList := by
  rw [decodeText?, Utf8.decode?_eq_some_iff]
  constructor
  · intro same before high low after parts
    by_contra digits
    simp only [not_or, ← ne_eq, Option.ne_none_iff_exists'] at digits
    obtain ⟨⟨x, first⟩, y, second⟩ := digits
    have ascii : ∀ {c : Char} {d : Nat}, Hex.digitValue? c = some d →
        String.utf8EncodeChar c = [Json.asciiByte c] :=
      fun digit => if_pos (Nat.lt_succ_iff.1 (Hex.toNat_lt_of_digitValue? digit))
    have written : Utf8.encode text = before.flatMap String.utf8EncodeChar ++
        0x25 :: Json.asciiByte high :: Json.asciiByte low ::
          after.flatMap String.utf8EncodeChar := by
      rw [Utf8.encode_eq_flatMap, parts]
      simp only [List.flatMap_append, List.flatMap_cons, ascii first, ascii second]
      rfl
    have none := (decodes_decode (Utf8.encode text)).byteOf?_eq_none (by rw [same]) written
    rw [byteOf?_asciiByte first second] at none
    cases none
  · intro unescaped
    rw [Utf8.encode_eq_flatMap, decode_of_unescaped unescaped]

theorem length_le_of_decodeText? {text segment : String} (h : decodeText? segment = some text) :
    (Utf8.encode text).length ≤ (Utf8.encode segment).length := by
  rw [← Utf8.eq_encode_of_decode? h]
  exact (decodes_decode _).length_le

end Percent

theorem ApiDocument.of_ofFile {fileName : String} {body : Bytes} {d : ApiDocument}
    (loaded : ofFile fileName body = .ok d) : d.fileName = fileName ∧ d.body = body ∧
      ((ApiFormat.ofFileName fileName).read? body).bind Outline.title? = some d.title := by
  unfold ofFile at loaded
  split at loaded
  · rename_i title read
    obtain rfl := Except.ok.inj loaded
    exact ⟨rfl, rfl, read⟩
  · cases loaded

theorem ApiDocument.body_ne_health {fileName : String} {body : Bytes} {d : ApiDocument}
    (loaded : ofFile fileName body = .ok d) (ready : Bool) :
    d.body ≠ HealthAnswer.write ⟨"ok", ready, true⟩ := by
  rintro same
  obtain ⟨-, rfl, title⟩ := of_ofFile loaded
  have untitled : ∀ format, ((ApiFormat.read? (HealthAnswer.write ⟨"ok", ready, true⟩) format).bind
      Outline.title?).isNone = true := by
    intro format
    cases ready <;> cases format <;> decide +kernel
  have none := untitled (ApiFormat.ofFileName fileName)
  rw [← same, title] at none
  cases none

namespace Http

variable {base : String} {site : Site} {d : ApiDocument} {request : Request}

/-- The response has the bytes of the document, not compressed, and its content type. -/
structure Response.Carries (response : Response) (d : ApiDocument) : Prop where
  status : response.status = 200
  body : response.body = d.body
  contentType : ("content-type", d.contentType) ∈ response.headers
  coding : response.coding = none

theorem Response.not_carries_coded {response : Response} (other : response.status ≠ 200) :
    ¬(response.coded request).Carries d :=
  fun carries => other ((Response.status_coded _ _).symm.trans carries.status)

def served (d : ApiDocument) : Response where
  status := 200
  headers := Site.uncached ++ [("content-type", d.contentType)]
  body := d.body

theorem coded_of_no_headers (response : Response) {method target : String} {body : Bytes} :
    let sent := response.coded ⟨method, target, [], body⟩
    sent.status = response.status ∧ sent.body = response.body ∧ sent.coding = response.coding ∧
      ∀ field ∈ response.headers, field ∈ sent.headers := by
  intro sent
  have chosen : Negotiation.choose [] = .identity := by decide
  simp only [sent, Response.coded, Request.headerValues, List.filter_nil, List.map_nil, chosen]
  split_ifs
  · simp
  · simp +contextual

section

variable {σ : Type} {backend : Backend σ} {state : σ}

theorem ends_docsFile (docs : site.docs = some d) (name : String) :
    Program.Ends backend (site.docsFile [⟨"file_name", name⟩]) state
      (match Percent.decodeText? name with
        | none => Response.text 400 "Invalid URL: Invalid UTF-8 in `file_name`"
        | some text => if text = d.fileName then served d else Response.error 404 "Invalid Request")
      state := by
  have only := onlyParameter_single "file_name" name
  unfold Site.docsFile withParameter
  cases decoded : Percent.decodeText? name with
  | none =>
    rw [decoded] at only
    rw [only]
    exact Program.ends_done _ _
  | some text =>
    rw [decoded] at only
    simp only [only, Site.loadedDocs, docs]
    change Program.Ends backend
      (respond (if text = d.fileName then pure d else throw .unknownFile) _)
      state _ state
    split_ifs with same
    · exact Program.ends_done _ _
    · exact ends_respond_of_error (Program.ends_done _ _)

theorem Site.ends_handle_docsFile (router : site.router = Router.below base)
    (free : base ≠ "/health")
    (docs : site.docs = some d) (get : request.method = "GET") {name : String}
    (segment : IsSegment name) (path : Target.path request.target = base ++ "/swagger/" ++ name) :
    Program.Ends backend (site.handle request) state
      (match Percent.decodeText? name with
        | none => Response.text 400 "Invalid URL: Invalid UTF-8 in `file_name`"
        | some text => if text = d.fileName then served d else Response.error 404 "Invalid Request")
      state := by
  obtain ⟨route, found, endpoint⟩ := Router.find?_of_leads free (.docsFile segment)
  simp only [handle, router, path, found, handleFound, endpoint, reading, get, decide_true,
    Bool.true_or, if_true]
  exact ends_docsFile docs name

theorem Site.handle_docsFile_carries_iff (router : site.router = Router.below base)
    (free : base ≠ "/health") (docs : site.docs = some d) {name target : String}
    (segment : IsSegment name) (path : Target.path target = base ++ "/swagger/" ++ name) :
    ∃ response, Program.Ends backend (site.handle ⟨"GET", target, [], []⟩) state response state ∧
      ((response.coded ⟨"GET", target, [], []⟩).Carries d ↔
        Percent.decodeText? name = some d.fileName) := by
  refine ⟨_, Site.ends_handle_docsFile router free docs rfl segment path, ?_⟩
  cases decoded : Percent.decodeText? name with
  | none =>
    simp only [reduceCtorEq, iff_false]
    exact Response.not_carries_coded (by decide)
  | some text =>
    dsimp only
    split_ifs with same
    · obtain ⟨status, body', coding, headers⟩ := @coded_of_no_headers (served d) "GET" target []
      simp only [same, iff_true]
      exact ⟨status, body', headers _ (by simp [served]), coding⟩
    · simp only [Option.some.injEq, same, iff_false]
      exact Response.not_carries_coded (by decide)

theorem not_carries_health (other : ∀ ready, d.body ≠ HealthAnswer.write ⟨"ok", ready, true⟩)
    (ready : Bool) :
    ¬((Response.json 200 [] (HealthAnswer.write ⟨"ok", ready, true⟩)).coded request).Carries d := by
  intro carries
  have content := carries.body
  rw [Response.body_coded] at content
  exact other ready content.symm

/-- A path that is cut short is that of the health check, of another file, or of nothing. -/
theorem Site.not_carries_of_cut (router : site.router = Router.below base) (free : base ≠ "/health")
    (docs : site.docs = some d)
    (other : ∀ ready, d.body ≠ HealthAnswer.write ⟨"ok", ready, true⟩) {target : String} {c : Char}
    {rest : List Char} (ending : c = '?' ∨ c = '#')
    (cut : (base ++ "/swagger/" ++ d.fileName).toList = (Target.path target).toList ++ c :: rest) :
    ∃ response, Program.Ends backend (site.handle ⟨"GET", target, [], []⟩) state response state ∧
      ¬(response.coded ⟨"GET", target, [], []⟩).Carries d := by
  cases found : site.router.find? (Target.path target) with
  | none =>
    refine ⟨Response.invalidRequest, ?_, Response.not_carries_coded (by decide)⟩
    simp only [handle, found]
    exact Program.ends_done _ _
  | some found' =>
    have leads := Router.leads_of_find? free (router ▸ found)
    generalize path : Target.path target = p at leads cut
    generalize found'.route.endpoint = endpoint at leads
    generalize found'.captures = captures at leads
    have plain : c ≠ '/' ∧ c ≠ 's' := by
      rcases ending with rfl | rfl <;> decide
    cases leads with
    | health =>
      obtain ⟨route, healthy, endpoint⟩ :=
        Router.find?_of_leads free (Leads.health : Leads base _ _ _)
      refine ⟨_, ?_, not_carries_health other site.service.ready⟩
      simp only [handle, router, path, healthy, handleFound, endpoint, reading, health, docs]
      exact Program.ends_done _ _
    | docsPage =>
      obtain ⟨next, -⟩ : '/' = c ∧ _ := by simpa using cut
      exact absurd next.symm plain.1
    | @docsFile name segment =>
      obtain ⟨response, ends, iff⟩ := handle_docsFile_carries_iff router free docs segment path
      refine ⟨response, ends, fun carries => ?_⟩
      -- The name lacks what was cut off, and decoding does not make a text longer.
      have shorter := Percent.length_le_of_decodeText? (iff.1 carries)
      have longer : d.fileName.toList = name.toList ++ c :: rest := by simpa using cut
      rw [Utf8.encode_eq_flatMap, Utf8.encode_eq_flatMap, longer, List.flatMap_append,
        List.length_append, List.flatMap_cons, List.length_append,
          String.length_utf8EncodeChar] at shorter
      have filled := c.utf8Size_pos
      omega
    | @account id segment different unchecked =>
      have split : "swagger".toList ++ '/' :: d.fileName.toList = id.toList ++ c :: rest := by
        simpa using cut
      have first := congrArg (List.takeWhile (· ≠ '/')) split
      rw [List.takeWhile_append_of_pos (by simp), List.takeWhile_append_of_pos] at first
      · have mem : c ∈ "swagger".toList := by
          have kept := congrArg (c ∈ ·) first
          simpa [plain.1] using kept
        rcases ending with rfl | rfl <;> simp at mem
      · intro x mem
        simpa using ne_of_mem_of_not_mem mem segment.2
    | list =>
      obtain ⟨next, -⟩ : 's' = c ∧ _ := by simpa using cut
      exact absurd next.symm plain.2
    | bare filled =>
      obtain ⟨next, -⟩ : '/' = c ∧ _ := by simpa using cut
      exact absurd next.symm plain.1

theorem Site.handle_address_carries_iff (router : site.router = Router.below base)
    (rooted : Rooted base) (free : base ≠ "/health") (docs : site.docs = some d)
    (segment : IsSegment d.fileName)
    (other : ∀ ready, d.body ≠ HealthAnswer.write ⟨"ok", ready, true⟩) :
    let request : Request := ⟨"GET", base ++ "/swagger/" ++ d.fileName, [], []⟩
    ∃ response, Program.Ends backend (site.handle request) state response state ∧
      ((response.coded request).Carries d ↔
        Target.Bare request.target.toList ∧ Percent.Unescaped d.fileName.toList) := by
  intro request
  have slash : "/".toList <+: request.target.toList := by
    have below : request.target = base ++ "/" ++ ("swagger/" ++ d.fileName) := by
      simp [request, ← String.toList_inj]
    rw [below]
    exact rooted.slash_prefix _
  rcases Target.path_cases slash with ⟨path, bare⟩ | ⟨c, rest, ending, cut⟩
  · obtain ⟨response, ends, iff⟩ := handle_docsFile_carries_iff router free docs segment path
    refine ⟨response, ends, iff.trans ?_⟩
    rw [Percent.decodeText?_eq_self_iff]
    exact (and_iff_right bare).symm
  · obtain ⟨response, ends, lost⟩ := not_carries_of_cut router free docs other ending cut
    refine ⟨response, ends, iff_of_false lost fun h => ?_⟩
    have whole := h.1 c (by rw [cut]; simp)
    exact ending.elim whole.1 whole.2

theorem Site.handle_docsPage (router : site.router = Router.below base) (free : base ≠ "/health")
    (docs : site.docs = some d) (get : request.method = "GET")
    (path : Target.path request.target = base ++ "/swagger") :
    Program.Ends backend (site.handle request) state
      { status := 200, headers := uncached ++ [("content-type", "text/html; charset=utf-8")],
        body := Utf8.encode (ApiDocument.Page.render d.title (site.docsAddress d)) } state := by
  obtain ⟨route, found, endpoint⟩ := Router.find?_of_leads free (Leads.docsPage : Leads base _ _ _)
  simp only [handle, router, path, found, handleFound, endpoint, reading, get, decide_true,
    Bool.true_or, if_true, docsPage, loadedDocs, docs]
  exact Program.ends_done _ _

end

end Http

namespace ApiDocument.Page

theorem exists_front (title : String) :
    ∃ front, beforeTitle ++ Markup.escape title ++ beforeAddress = front ++ "url: \"" := by
  have entry : ∀ start : String, start ++ "      url: \"" = start ++ "      " ++ "url: \"" := by
    intro start
    rw [String.append_assoc]
    rfl
  exact ⟨_, (congrArg _ (entry _)).trans String.append_assoc.symm⟩

theorem toList_afterAddress : afterAddress.toList = '"' :: afterAddress.toList.tail := by
  simp only [afterAddress, String.toList_append]
  rfl

theorem read_address_iff (address : String) :
    Literal.read .plain (Markup.escape address ++ afterAddress).toList =
        some (address.toList.flatMap Literal.units, afterAddress.toList.tail) ↔
      ∀ c ∈ address.toList, Literal.Inert c := by
  rw [← Literal.read_escaped_iff address.toList afterAddress.toList.tail, String.toList_append,
    Markup.escape, String.toList_ofList, ← toList_afterAddress]

end ApiDocument.Page

open Http ApiDocument

/-- Below an accepted plain base path that is not that of the health check, the page names the
address of the document behind `url: `. The name is a literal of the script that ends at the quote
of the page and denotes the address, exactly if no character of the address means anything in markup
or in a literal. A request for the address gets the document, exactly if no character of it ends a
path and the name of the file has no escapes; of the addresses that a request can have, those get it
whose characters all stand in a path as they are, again unless the name has escapes. -/
theorem docs_page_points_iff {base : String} (valid : Settings.validBase base = true)
    (plain : Plain base.toList) (free : base ≠ "/health") (service : Service) {d : ApiDocument}
    (segment : IsSegment d.fileName)
    (other : ∀ ready, d.body ≠ HealthAnswer.write ⟨"ok", ready, true⟩) :
    let address := base ++ "/swagger/" ++ d.fileName
    ∃ site, Site.build service (some d) base = .ok site ∧
      (∃ front, Page.beforeTitle ++ Markup.escape d.title ++ Page.beforeAddress =
        front ++ "url: \"" ∧
        ∀ (faults : Faults) (request : Request) (state : Scripted), request.method = "GET" →
          Target.path request.target = base ++ "/swagger" →
          ∃ response, (Session.step ⟨site⟩ faults (.request request) state).result =
              .response response ∧ response.status = 200 ∧ response.body =
            Utf8.encode (front ++ "url: \"" ++ (Markup.escape address ++ Page.afterAddress))) ∧
      (Literal.read .plain (Markup.escape address ++ Page.afterAddress).toList =
          some (address.toList.flatMap Literal.units, Page.afterAddress.toList.tail) ↔
        ∀ c ∈ address.toList, Literal.Inert c) ∧
      ∀ (faults : Faults) (state : Scripted),
        let served := ∃ response,
          (Session.step ⟨site⟩ faults (.request ⟨"GET", address, [], []⟩) state).result =
            .response response ∧ response.Carries d
        (served ↔ (∀ c ∈ address.toList, c ≠ '?' ∧ c ≠ '#') ∧ Percent.Unescaped d.fileName.toList) ∧
          (Target.accepts address = true ∧ served ↔
            (∀ c ∈ address.toList, Target.isPathChar c = true) ∧
              address.utf8ByteSize ≤ Target.mostBytes ∧ Percent.Unescaped d.fileName.toList) := by
  intro address
  have rooted := rooted_of_validBase valid
  obtain ⟨site, built, router, docs, page⟩ :
      ∃ site : Site, Site.build service (some d) base = .ok site ∧
      site.router = Router.below base ∧ site.docs = some d ∧ site.docsAddress d = address := by
    simp [Site.build, Router.build_eq_below rooted plain free, Site.docsAddress, address]
  refine ⟨site, built, ?_, Page.read_address_iff address, ?_⟩
  · obtain ⟨front, parts⟩ := Page.exists_front d.title
    refine ⟨front, parts, fun faults request state get path => ?_⟩
    have told := @Session.step_request_of_ends ⟨site⟩ faults request state _ _
      (Site.handle_docsPage router free docs get path)
    refine ⟨_, told.1, Response.status_coded _ _, ?_⟩
    rw [Response.body_coded, page, Page.render, ← parts]
    simp only [String.append_assoc]
  · intro faults state served
    obtain ⟨response, ends, iff⟩ := @Site.handle_address_carries_iff base site d _
      (Scripted.backend faults) { state with calls := [] } router rooted free docs segment other
    have told := (@Session.step_request_of_ends ⟨site⟩ faults _ state _ _ ends).1
    have exact : served ↔ Target.Bare address.toList ∧ Percent.Unescaped d.fileName.toList := by
      rw [← iff]
      dsimp only [served]
      rw [told]
      simp
    refine ⟨exact, ?_⟩
    rw [exact, ← and_assoc, and_comm (a := Target.accepts address = true),
      Target.bare_and_accepts_iff, and_assoc]

def pathless : Bytes := Utf8.encode
  ("\x7b\"openapi\":\"3.0.0\",\"info\":\x7b\"title\":\"t\",\"version\":\"1\"\x7d," ++
    "\"paths\":\x7b\x7d\x7d")

theorem ofFile_pathless {fileName : String} (json : ApiFormat.ofFileName fileName = .json) :
    ofFile fileName pathless = .ok ⟨fileName, "t", pathless⟩ := by
  have title : (ApiFormat.json.read? pathless).bind Outline.title? = some "t" := by decide +kernel
  rw [ofFile, json, title]

theorem docs_page_points_iff_default :
    let address := "/identrust" ++ "/swagger/" ++ "swagger.json"
    let d : ApiDocument := ⟨"swagger.json", "t", pathless⟩
    ∃ site, Site.build ⟨⟨"bucket", "key"⟩, none⟩ (some d) "/identrust" = .ok site ∧
      Literal.read .plain (Markup.escape address ++ Page.afterAddress).toList =
        some (address.toList.flatMap Literal.units, Page.afterAddress.toList.tail) ∧
      ∃ response,
        (Session.step ⟨site⟩ {} (.request ⟨"GET", address, [], []⟩) resting.state).result =
        .response response ∧ response.Carries d := by
  intro address d
  have loaded : ofFile "swagger.json" pathless = .ok d := ofFile_pathless (by decide +kernel)
  obtain ⟨site, built, -, literal, carries⟩ := docs_page_points_iff
    (show Settings.validBase "/identrust" = true by decide +kernel) (by simp [Plain]) (by simp)
    ⟨⟨"bucket", "key"⟩, none⟩ (show IsSegment d.fileName by decide +kernel) (body_ne_health loaded)
  refine ⟨site, built, literal.2 (by simp [Literal.Inert, d]),
    (carries {} resting.state).1.2 ⟨?_, ?_⟩⟩
  · simp [d]
  · intro before high low after parts
    have sign : '%' ∈ d.fileName.toList := by simp [parts]
    simp [d] at sign

/-- The page for a name with an ampersand points at another name, and under a name with an escape
there is no document, although both documents are loaded. -/
theorem docs_page_points_elsewhere :
    ofFile "a&b.json" pathless = .ok ⟨"a&b.json", "t", pathless⟩ ∧
    Literal.read .plain (Markup.escape "/identrust/swagger/a&b.json" ++ Page.afterAddress).toList =
      some ("/identrust/swagger/a&amp;b.json".toList.flatMap Literal.units,
        Page.afterAddress.toList.tail) ∧
    "/identrust/swagger/a&amp;b.json".toList.flatMap Literal.units ≠
      "/identrust/swagger/a&b.json".toList.flatMap Literal.units ∧
    ofFile "a%41.json" pathless = .ok ⟨"a%41.json", "t", pathless⟩ ∧
    let session : Session := ⟨⟨⟨⟨"bucket", "key"⟩, none⟩, some ⟨"a%41.json", "t", pathless⟩,
      "/identrust", Router.below "/identrust"⟩⟩
    ∃ response, (session.step {} (.request ⟨"GET", "/identrust/swagger/a%41.json", [], []⟩)
      resting.state).result = .response response ∧ response.status = 404 := by
  refine ⟨ofFile_pathless (by decide +kernel), ?_, by decide +kernel,
    ofFile_pathless (by decide +kernel), _, rfl, by decide +kernel⟩
  have escaped : (Markup.escape "/identrust/swagger/a&b.json").toList =
      "/identrust/swagger/a&amp;b.json".toList := by decide +kernel
  rw [String.toList_append, escaped, Page.toList_afterAddress, Literal.read_verbatim (by simp),
    if_pos (by simp), List.tail_cons]

end AccountVault
