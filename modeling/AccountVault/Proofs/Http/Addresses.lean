import Mathlib
import AccountVault.Proofs.Http.Agreement

/-!
# Addresses of accounts

A path is matched as it was sent and its last segment is decoded afterwards. So an id whose bytes
are all escaped cannot be taken for a fixed path, and cannot end its segment early. `Escapes` says
what an escaped text is, with digits of either case, and `Decodes` what a segment denotes, byte by
byte. Main statement: below a plain base path every id but the empty one has an address, and
whatever segment the account route takes, the account served is that of the text it denotes, or
there is no such text and the request is refused before the store is asked.
-/

namespace AccountVault

namespace Hex

theorem toNat_lt_of_digitValue? {c : Char} {value : Nat} (digit : digitValue? c = some value) :
    c.toNat < 0x80 := by
  unfold digitValue? at digit
  split_ifs at digit with decimal small big
  · exact Nat.lt_of_le_of_lt decimal.2 (by decide)
  · exact Nat.lt_of_le_of_lt small.2 (by decide)
  · exact Nat.lt_of_le_of_lt big.2 (by decide)

theorem ne_of_digitValue? {c other : Char} {value : Nat} (digit : digitValue? c = some value)
    (foreign : digitValue? other = none) : c ≠ other := by
  rintro rfl
  rw [foreign] at digit
  cases digit

theorem isPathChar_of_digitValue? {c : Char} {value : Nat} (digit : digitValue? c = some value) :
    Http.Target.isPathChar c = true := by
  have all : ∀ n < 0x80, (digitValue? (Char.ofNat n)).isSome = true →
      Http.Target.isPathChar (Char.ofNat n) = true := by
    decide
  have read := all c.toNat (toNat_lt_of_digitValue? digit)
  rw [Char.ofNat_toNat, digit] at read
  exact read rfl

end Hex

theorem Utf8.encode_ne_nil {text : String} (filled : text ≠ "") : encode text ≠ [] := by
  intro empty
  have same := Utf8.decode?_encode text
  rw [empty] at same
  exact filled (Option.some.inj same).symm

namespace Percent

/-- Every byte is written as a percent sign and two digits. -/
inductive Escapes : Bytes → List Char → Prop
  | nil : Escapes [] []
  | byte {high low : Char} {h l : Nat} {rest : Bytes} {text : List Char}
      (first : Hex.digitValue? high = some h) (second : Hex.digitValue? low = some l)
      (more : Escapes rest text) :
    Escapes (UInt8.ofNat (16 * h + l) :: rest) ('%' :: high :: low :: text)

variable {bytes : Bytes} {text : List Char}

theorem Escapes.mem_cases (escapes : Escapes bytes text) {c : Char} (mem : c ∈ text) :
    c = '%' ∨ ∃ value, Hex.digitValue? c = some value := by
  induction escapes with
  | nil => cases mem
  | byte first second more ih =>
    simp only [List.mem_cons] at mem
    rcases mem with rfl | rfl | rfl | mem
    · exact .inl rfl
    · exact .inr ⟨_, first⟩
    · exact .inr ⟨_, second⟩
    · exact ih mem

theorem Escapes.not_mem (escapes : Escapes bytes text) {c : Char} (other : c ≠ '%')
    (foreign : Hex.digitValue? c = none) : c ∉ text := by
  intro mem
  rcases escapes.mem_cases mem with rfl | ⟨value, digit⟩
  · exact other rfl
  · exact Hex.ne_of_digitValue? digit foreign rfl

theorem Escapes.toNat_lt (escapes : Escapes bytes text) : ∀ c ∈ text, c.toNat < 0x80 := by
  intro c mem
  rcases escapes.mem_cases mem with rfl | ⟨value, digit⟩
  · decide
  · exact Hex.toNat_lt_of_digitValue? digit

theorem Escapes.percent_mem (escapes : Escapes bytes text) (filled : bytes ≠ []) : '%' ∈ text := by
  cases escapes with
  | nil => exact absurd rfl filled
  | byte => exact List.mem_cons_self

theorem digitValue?_asciiByte {c : Char} (small : c.toNat < 0x80) :
    digitValue? (Json.asciiByte c) = Hex.digitValue? c := by
  rw [digitValue?, Json.asciiByte, UInt8.toNat_ofNat', Nat.mod_eq_of_lt (by omega),
    Char.ofNat_toNat]

theorem byteOf?_asciiByte {high low : Char} {h l : Nat} (first : Hex.digitValue? high = some h)
    (second : Hex.digitValue? low = some l) :
    byteOf? (Json.asciiByte high) (Json.asciiByte low) = some (UInt8.ofNat (16 * h + l)) := by
  simp [byteOf?, digitValue?_asciiByte (Hex.toNat_lt_of_digitValue? first),
    digitValue?_asciiByte (Hex.toNat_lt_of_digitValue? second), first, second]

theorem decode_of_escapes (escapes : Escapes bytes text) :
    decode (text.map Json.asciiByte) = bytes := by
  induction escapes with
  | nil => rfl
  | byte first second more ih =>
    have sign : Json.asciiByte '%' = 0x25 := rfl
    simp only [List.map_cons, decode, sign, if_true, byteOf?_asciiByte first second, ih]

theorem decodeText?_of_escapes {id segment : String}
    (escapes : Escapes (Utf8.encode id) segment.toList) : decodeText? segment = some id := by
  have written := Json.encode_ofList_of_ascii escapes.toNat_lt
  rw [String.ofList_toList] at written
  rw [decodeText?, written, decode_of_escapes escapes, Utf8.decode?_encode]

theorem escapes_encodeText (id : String) :
    Escapes (Utf8.encode id) (encodeText id).toList := by
  rw [encodeText, String.toList_ofList]
  generalize Utf8.encode id = bytes
  induction bytes with
  | nil => exact .nil
  | cons byte rest ih =>
    obtain ⟨high, low, written, read⟩ := byteOf?_escape byte
    obtain ⟨h, first, read⟩ := Option.bind_eq_some_iff.1 read
    obtain ⟨l, second, read⟩ := Option.bind_eq_some_iff.1 read
    obtain rfl := Option.some.inj read
    simp only [encodeAll, List.flatMap_cons, written, List.cons_append, List.nil_append,
      List.map_cons]
    exact .byte first second ih

/-- The bytes that a text denotes: an escape stands for its byte, and any other byte for itself, a
percent sign without two digits after it included. -/
inductive Decodes : Bytes → Bytes → Prop
  | nil : Decodes [] []
  | escape {high low byte : UInt8} {rest out : Bytes} (digits : byteOf? high low = some byte)
      (more : Decodes rest out) : Decodes (0x25 :: high :: low :: rest) (byte :: out)
  | keep {byte : UInt8} {rest out : Bytes}
      (bare : byte = 0x25 → ∀ high low tail, rest = high :: low :: tail → byteOf? high low = none)
      (more : Decodes rest out) : Decodes (byte :: rest) (byte :: out)

theorem decode_keep {byte : UInt8} {rest : Bytes}
    (bare : byte = 0x25 → ∀ high low tail, rest = high :: low :: tail → byteOf? high low = none) :
    decode (byte :: rest) = byte :: decode rest := by
  match rest with
  | [] => rfl
  | [_] => rfl
  | high :: low :: tail =>
    rw [decode]
    split_ifs with sign
    · rw [bare sign high low tail rfl]
    · rfl

theorem decodes_decode (bytes : Bytes) : Decodes bytes (decode bytes) := by
  fun_induction decode bytes with
  | case1 => exact .nil
  | case2 a => exact .keep (by simp) .nil
  | case3 a b => exact .keep (by simp) (.keep (by simp) .nil)
  | case4 b c rest byte digits ih => exact .escape digits ih
  | case5 b c rest none ih =>
    apply Decodes.keep _ ih
    intro _ high low tail same
    obtain ⟨rfl, rfl, rfl⟩ : b = high ∧ c = low ∧ rest = tail := by simpa using same
    exact none
  | case6 a b c rest other ih => exact .keep (fun sign => absurd sign other) ih

theorem decodes_iff {out : Bytes} : Decodes bytes out ↔ out = decode bytes := by
  constructor
  · intro decodes
    induction decodes with
    | nil => rfl
    | escape digits more ih => simp only [decode, if_true, digits, ih]
    | keep bare more ih => rw [decode_keep bare, ih]
  · rintro rfl
    exact decodes_decode bytes

end Percent

namespace Http

variable {base : String} {site : Site}

theorem isSegment_of_escapes {bytes : Bytes} {segment : String} (filled : bytes ≠ [])
    (escapes : Percent.Escapes bytes segment.toList) : IsSegment segment := by
  refine ⟨?_, escapes.not_mem (by decide) (by decide)⟩
  rintro rfl
  exact List.not_mem_nil (escapes.percent_mem filled)

theorem leads_of_escapes {bytes : Bytes} {segment : String} (filled : bytes ≠ [])
    (escapes : Percent.Escapes bytes segment.toList) :
    Leads base (base ++ "/" ++ segment) .account [⟨"account_id", segment⟩] := by
  have sign := escapes.percent_mem filled
  apply Leads.account (isSegment_of_escapes filled escapes)
  · rintro rfl
    simp at sign
  · intro same
    have inside : '%' ∈ (base ++ "/" ++ segment).toList := by simp [sign]
    rw [same] at inside
    simp at inside

theorem Target.forall_mem_address {bytes : Bytes} {segment : String}
    (escapes : Percent.Escapes bytes segment.toList) {p : Char → Prop} (slash : p '/')
    (sign : p '%') (digits : ∀ c value, Hex.digitValue? c = some value → p c) :
    (∀ c ∈ (base ++ "/" ++ segment).toList, p c) ↔ ∀ c ∈ base.toList, p c := by
  constructor
  · exact fun all c mem => all c (by simp [mem])
  · intro all c mem
    simp only [String.toList_append, List.mem_append] at mem
    rcases mem with (mem | mem) | mem
    · exact all c mem
    · obtain rfl : c = '/' := by simpa using mem
      exact slash
    · rcases escapes.mem_cases mem with rfl | ⟨value, digit⟩
      · exact sign
      · exact digits c value digit

theorem Target.bare_of_escapes {bytes : Bytes} {segment : String}
    (escapes : Percent.Escapes bytes segment.toList) :
    Target.Bare (base ++ "/" ++ segment).toList ↔ Target.Bare base.toList :=
  Target.forall_mem_address escapes (by decide) (by decide) fun _ _ digit =>
    ⟨Hex.ne_of_digitValue? digit (by decide), Hex.ne_of_digitValue? digit (by decide)⟩

theorem Target.path_of_escapes {bytes : Bytes} {segment : String} (rooted : Rooted base)
    (escapes : Percent.Escapes bytes segment.toList) (bare : Target.Bare base.toList) :
    Target.path (base ++ "/" ++ segment) = base ++ "/" ++ segment :=
  Target.path_of_bare (rooted.slash_prefix segment) ((Target.bare_of_escapes escapes).2 bare)

theorem Target.accepts_of_escapes {bytes : Bytes} {segment : String}
    (escapes : Percent.Escapes bytes segment.toList) (bare : Target.Bare base.toList) :
    Target.accepts (base ++ "/" ++ segment) = true ↔
      (∀ c ∈ base.toList, Target.isPathChar c = true) ∧
        (base ++ "/" ++ segment).utf8ByteSize ≤ Target.mostBytes := by
  rw [Target.accepts_of_bare ((Target.bare_of_escapes escapes).2 bare),
    Target.forall_mem_address escapes (by decide) (by decide)]
  exact fun c value digit => Hex.isPathChar_of_digitValue? digit

namespace Site

def serve (site : Site) (request : Request) (id : String) : Program Response :=
  if request.method = "GET" || request.method = "HEAD" then respond (site.service.get id) accept
  else if request.method = "POST" then
    respond (readInput request >>= site.service.create id) accept
  else if request.method = "PUT" then
    respond (readInput request >>= site.service.update id) accept
  else if request.method = "DELETE" then respond (site.service.delete id) accept
  else unsupported "GET,HEAD,POST,PUT,DELETE"

/-- The account route takes the path, and the id is what its handler is given. -/
def Receives (site : Site) (path id : String) : Prop :=
  ∃ found, site.router.find? path = some found ∧ found.route.endpoint = .account ∧
    onlyParameter found.captures = .ok id

theorem receives_of_leads (router : site.router = Router.below base) (free : base ≠ "/health")
    {path segment id : String} (leads : Leads base path .account [⟨"account_id", segment⟩])
    (decoded : Percent.decodeText? segment = some id) : site.Receives path id := by
  obtain ⟨route, h, account⟩ := Router.find?_of_leads free leads
  refine ⟨_, by rw [router, h], account, ?_⟩
  rw [onlyParameter_single, decoded]

theorem handle_of_receives {request : Request} {id : String}
    (receives : site.Receives (Target.path request.target) id) :
    site.handle request = site.serve request id := by
  obtain ⟨found, h, account, only⟩ := receives
  simp only [handle, h, handleFound, account, handleAccount, getAccount, createAccount,
    updateAccount, deleteAccount, withParameter_ok only, serve]

theorem handle_of_undecodable (router : site.router = Router.below base) (free : base ≠ "/health")
    {segment : String} {request : Request}
    (leads : Leads base (Target.path request.target) .account [⟨"account_id", segment⟩])
    (undecodable : Percent.decodeText? segment = none)
    (offered : request.method ∈ Endpoint.account.methods) :
    site.handle request =
      .done (Response.text 400 "Invalid URL: Invalid UTF-8 in `account_id`") := by
  obtain ⟨route, h, account⟩ := Router.find?_of_leads free leads
  have refused := onlyParameter_single "account_id" segment
  rw [undecodable] at refused
  simp only [Endpoint.methods, List.mem_cons, List.not_mem_nil, or_false] at offered
  simp only [handle, router, h, handleFound, account, handleAccount, getAccount, createAccount,
    updateAccount, deleteAccount, withParameter, refused]
  rcases offered with method | method | method | method | method <;> simp [method] <;> rfl

end Site

/-- Below an accepted plain base path that is not that of the health check, the path of every id but
the empty one, with all bytes of the id escaped, is taken by the account route and the id is what is
served. Conversely, a path that the account route takes is the base path and one segment; what is
served is the text whose bytes the segment denotes, and when those bytes are no text, every method
of the route is answered with 400 without a call to the store. -/
theorem every_id_addressable {base : String} (valid : Settings.validBase base = true)
    (plain : Plain base.toList) (free : base ≠ "/health") (service : Service)
    (docs : Option ApiDocument) :
    ∃ site, Site.build service docs base = .ok site ∧
      (∀ id segment : String, id ≠ "" → Percent.Escapes (Utf8.encode id) segment.toList →
        site.Receives (base ++ "/" ++ segment) id ∧
        (∀ request : Request, Target.path request.target = base ++ "/" ++ segment →
          site.handle request = site.serve request id) ∧
        ((∀ c ∈ base.toList, c ≠ '?' ∧ c ≠ '#') →
          Target.path (base ++ "/" ++ segment) = base ++ "/" ++ segment ∧
          (Target.accepts (base ++ "/" ++ segment) = true ↔
            (∀ c ∈ base.toList, Target.isPathChar c = true) ∧
              (base ++ "/" ++ segment).utf8ByteSize ≤ Target.mostBytes))) ∧
      (∀ id, Percent.Escapes (Utf8.encode id) (Percent.encodeText id).toList) ∧
      ∀ path found, site.router.find? path = some found → found.route.endpoint = .account →
        ∃ segment bytes, IsSegment segment ∧ path = base ++ "/" ++ segment ∧
          Percent.Decodes (Utf8.encode segment) bytes ∧
          (∀ id, bytes = Utf8.encode id → site.Receives path id ∧
            ∀ request : Request, Target.path request.target = path →
              site.handle request = site.serve request id) ∧
          ((∀ id, bytes ≠ Utf8.encode id) → ∀ (faults : Faults) (request : Request)
              (state : Scripted), Target.path request.target = path →
            request.method ∈ Endpoint.account.methods →
            let report := Session.step ⟨site⟩ faults (.request request) state
            report.state = { state with calls := [] } ∧
              ∃ response, report.result = .response response ∧ response.status = 400) := by
  have rooted := rooted_of_validBase valid
  obtain ⟨site, built, router⟩ : ∃ site, Site.build service docs base = .ok site ∧
      site.router = Router.below base := by
    simp [Site.build, Router.build_eq_below rooted plain free]
  refine ⟨site, built, ?_, Percent.escapes_encodeText, ?_⟩
  · intro id segment filled escapes
    have leads : Leads base (base ++ "/" ++ segment) .account [⟨"account_id", segment⟩] :=
      leads_of_escapes (Utf8.encode_ne_nil filled) escapes
    have receives :=
      Site.receives_of_leads router free leads (Percent.decodeText?_of_escapes escapes)
    refine ⟨receives, ?_, fun bare => ⟨Target.path_of_escapes rooted escapes bare,
      Target.accepts_of_escapes escapes bare⟩⟩
    intro request asked
    rw [← asked] at receives
    exact Site.handle_of_receives receives
  · intro path found h account
    rw [router] at h
    have leads := Router.leads_of_find? free h
    rw [account] at leads
    obtain ⟨segment, single, other, unchecked, rfl⟩ := Endpoint.covers_iff.2 ⟨_, leads⟩
    have leads := Leads.account single other unchecked
    refine ⟨segment, _, single, rfl, Percent.decodes_decode _, ?_, ?_⟩
    · intro id named
      have receives := Site.receives_of_leads router free leads (Utf8.decode?_eq_some_iff.2 named)
      refine ⟨receives, ?_⟩
      intro request asked
      rw [← asked] at receives
      exact Site.handle_of_receives receives
    · intro unnamed faults request state asked offered
      have undecodable : Percent.decodeText? segment = none := by
        rw [Option.eq_none_iff_forall_ne_some]
        intro id decoded
        exact unnamed id (Utf8.decode?_eq_some_iff.1 decoded)
      rw [← asked] at leads
      have handled := Site.handle_of_undecodable router free leads undecodable offered
      obtain ⟨result, last⟩ := @Session.step_request_of_ends ⟨site⟩ faults request state _ _
        ⟨[], by rw [handled]; rfl⟩
      exact ⟨last, _, result, Response.status_coded _ _⟩

theorem every_id_addressable_swagger :
    ∃ site, Site.build ⟨⟨"bucket", "key"⟩, none⟩ none "/accounts" = .ok site ∧
      site.Receives "/accounts/%73%77%61%67%67%65%72" "swagger" ∧
      (∀ id, ¬site.Receives "/accounts/swagger" id) ∧ site.Receives "/accounts/%2f%2F" "//" ∧
      (Session.step ⟨site⟩ {} (.request ⟨"DELETE", "/accounts/%fF%", [], []⟩)
        resting.state).state = resting.state := by
  obtain ⟨site, built, addresses, escaped, conversely⟩ := every_id_addressable
    (show Settings.validBase "/accounts" = true by decide +kernel) (by simp [Plain]) (by simp)
    ⟨⟨"bucket", "key"⟩, none⟩ none
  have name : Percent.encodeText "swagger" = "%73%77%61%67%67%65%72" := by decide +kernel
  have slashes : Utf8.encode "//" = [0x2f, 0x2f] := by decide +kernel
  have router := (Site.router_of_build (by simp [Plain]) built).1
  refine ⟨site, built, ?_, ?_, ?_, ?_⟩
  · obtain ⟨receives, -⟩ := addresses "swagger" _ (by simp) (escaped "swagger")
    rw [name] at receives
    exact receives
  · rintro id ⟨found, h, account, -⟩
    rw [router] at h
    have page : ((Router.below "/accounts").find? "/accounts/swagger").map (·.route.endpoint) =
        some .docsPage := by decide +kernel
    rw [h, Option.map_some, account] at page
    cases page
  · refine (addresses "//" "%2f%2F" (by simp) ?_).1
    rw [slashes]
    exact .byte (h := 2) (l := 15) rfl rfl (.byte (h := 2) (l := 15) rfl rfl .nil)
  · have h : (Router.below "/accounts").find? "/accounts/%fF%" =
        some ⟨.ending "/accounts/" "account_id" .account, [⟨"account_id", "%fF%"⟩]⟩ := by
      decide +kernel
    obtain ⟨segment, bytes, -, same, decodes, -, refuses⟩ := conversely _ _ (router ▸ h) rfl
    obtain rfl : "%fF%" = segment := by simpa [← String.toList_inj] using same
    have denoted : bytes = [0xff, 0x25] := (Percent.decodes_iff.1 decodes).trans (by decide +kernel)
    refine (refuses ?_ {} _ resting.state (by decide +kernel) (by simp [Endpoint.methods])).1
    rintro id rfl
    have text := Utf8.decode?_encode id
    rw [denoted] at text
    exact Option.some_ne_none id (text.symm.trans (Option.isNone_iff_eq_none.1 (by decide +kernel)))

end Http

end AccountVault
