import Mathlib
import AccountVault.Settings
import AccountVault.Proofs.Http.Dispatch
import AccountVault.Proofs.Http.Targets
import AccountVault.Proofs.Json.Records

/-!
# Base paths that settings accept

Settings look at the ends of a base path only. Routes give a meaning to colons and asterisks as
well, and have the path of the health check for themselves, so an accepted base path can still be
one whose routes cannot be built or whose account paths have a parameter too many. A request,
moreover, is matched up to a query or a fragment, so it cannot ask for a path below a base path in
which one begins. Main statement: of the base paths that settings accept, those without a colon or
an asterisk serve their account paths, except for that of the health check, and no others do;
requests get to these paths exactly if there is no question mark and no number sign either.
-/

namespace AccountVault.Http

variable {base path : String}

namespace Router

theorem mem_of_foldl_better {start : Option Found} {others : List Found} {found : Found}
    (h : others.foldl better start = some found) : start = some found ∨ found ∈ others := by
  induction others generalizing start with
  | nil => exact .inl h
  | cons other others ih =>
    rw [List.foldl_cons] at h
    rcases ih h with kept | mem
    · cases start with
      | none => simp_all [better]
      | some first =>
        rw [better] at kept
        split_ifs at kept <;> simp_all
    · exact .inr (List.mem_cons_of_mem other mem)

theorem of_find? {router : Router} {found : Found} (h : router.find? path = some found) :
    found.route ∈ router.routes ∧
      Pattern.captures? found.route.pattern path.toList = some found.captures := by
  rcases mem_of_foldl_better h with none | mem
  · cases none
  · obtain ⟨route, listed, read⟩ := List.mem_filterMap.1 mem
    obtain ⟨captures, matched, rfl⟩ := Option.map_eq_some_iff.1 read
    exact ⟨listed, matched⟩

theorem length_captures_of_account {router : Router} (built : build base = .ok router)
    {found : Found} (h : router.find? path = some found)
    (account : found.route.endpoint = .account) :
    '*' ∉ base.toList ∧ found.captures.length = base.toList.count ':' + 1 := by
  obtain ⟨reads, -⟩ := build_eq_ok_iff.1 built
  obtain ⟨mem, matched⟩ := of_find? h
  obtain ⟨entry, listed, read, same⟩ := exists_of_mem_left (List.Forall₂.flip reads) mem
  have pattern : entry.1 = base ++ "/:account_id" := by
    rw [account] at same
    simp only [patterns, List.mem_append, List.mem_cons, List.not_mem_nil, or_false] at listed
    rcases listed with (rfl | rfl | rfl | rfl | rfl) | last
    · cases same
    · cases same
    · cases same
    · rfl
    · cases same
    · split_ifs at last
      · cases last
      · obtain rfl := List.mem_singleton.1 last
        cases same
  rw [pattern] at read
  obtain ⟨starless, counted⟩ := Pattern.parameters_parse read
  rw [Pattern.length_captures? matched, counted]
  simp at starless ⊢
  exact starless

/-- Every account path below the base path, asked for as it stands, is found with one parameter. -/
def ServesAccounts (base : String) : Prop :=
  ∃ router, build base = .ok router ∧ ∀ segment, IsSegment segment → segment ≠ "swagger" →
    base ++ "/" ++ segment ≠ "/health" → ∃ found capture,
      router.find? (base ++ "/" ++ segment) = some found ∧ found.route.endpoint = .account ∧
        found.captures = [capture]

/-- Every request for an account path below the base path is found with one parameter. -/
def ReachesAccounts (base : String) : Prop :=
  ∃ router, build base = .ok router ∧ ∀ segment, IsSegment segment → Target.Bare segment.toList →
    segment ≠ "swagger" → base ++ "/" ++ segment ≠ "/health" → ∃ found capture,
      router.find? (Target.path (base ++ "/" ++ segment)) = some found ∧
        found.route.endpoint = .account ∧ found.captures = [capture]

theorem plain_of_single_capture {router : Router} (built : build base = .ok router) {found : Found}
    (h : router.find? path = some found) (account : found.route.endpoint = .account)
    {capture : Capture} (single : found.captures = [capture]) : Plain base.toList := by
  obtain ⟨starless, counted⟩ := length_captures_of_account built h account
  have colonless : base.toList.count ':' = 0 := by
    rw [single, List.length_singleton] at counted
    omega
  intro c mem
  refine ⟨?_, ?_⟩
  · rintro rfl
    exact List.count_eq_zero.1 colonless mem
  · rintro rfl
    exact starless mem

theorem append_a_ne_health (base : String) : base ++ "/" ++ "a" ≠ "/health" := by
  intro same
  have last := congrArg (fun text => text.toList.getLast?) same
  simp at last

theorem servesAccounts_iff (rooted : Rooted base) :
    ServesAccounts base ↔ Plain base.toList ∧ base ≠ "/health" := by
  constructor
  · rintro ⟨router, built, serves⟩
    obtain ⟨found, capture, h, account, single⟩ :=
      serves "a" (by simp [IsSegment]) (by simp) (append_a_ne_health base)
    exact ⟨plain_of_single_capture built h account single, ne_health_of_build built⟩
  · rintro ⟨plain, free⟩
    refine ⟨below base, build_eq_below rooted plain free, ?_⟩
    intro segment single other unchecked
    obtain ⟨route, h, account⟩ := find?_of_leads free (.account single other unchecked)
    exact ⟨_, _, h, account, rfl⟩

theorem reachesAccounts_iff (rooted : Rooted base) :
    ReachesAccounts base ↔ Plain base.toList ∧ base ≠ "/health" ∧ Target.Bare base.toList := by
  constructor
  · rintro ⟨router, built, reaches⟩
    obtain ⟨found, capture, h, account, single⟩ := reaches "a" (by simp [IsSegment])
      (by simp [Target.Bare]) (by simp) (append_a_ne_health base)
    have plain := plain_of_single_capture built h account single
    have free := ne_health_of_build built
    refine ⟨plain, free, ?_⟩
    rcases Target.path_cases (rooted.slash_prefix "a") with ⟨-, bare⟩ | ⟨c, rest, ending, cut⟩
    · exact fun c mem => bare c (by simp [mem])
    · -- What is left of the path is too short to be that of an account.
      obtain rfl : below base = router :=
        Except.ok.inj ((build_eq_below rooted plain free).symm.trans built)
      have leads := leads_of_find? free h
      rw [account] at leads
      obtain ⟨segment, filled, -, -, whole⟩ := Endpoint.covers_iff.2 ⟨_, leads⟩
      have short := congrArg List.length cut
      rw [whole] at short
      have long : segment.toList ≠ [] := by simpa using filled.1
      have positive := List.length_pos_of_ne_nil long
      simp at short positive
      omega
  · rintro ⟨plain, free, bare⟩
    refine ⟨below base, build_eq_below rooted plain free, ?_⟩
    intro segment single clean other unchecked
    obtain ⟨route, h, account⟩ := find?_of_leads free (.account single other unchecked)
    have whole : Target.Bare (base ++ "/" ++ segment).toList := by
      intro c mem
      simp only [String.toList_append, List.mem_append] at mem
      rcases mem with (mem | mem) | mem
      · exact bare c mem
      · obtain rfl : c = '/' := by simpa using mem
        decide
      · exact clean c mem
    rw [Target.path_of_bare (rooted.slash_prefix segment) whole]
    exact ⟨_, _, h, account, rfl⟩

end Router

theorem onlyParameter_single (name value : String) :
    onlyParameter [⟨name, value⟩] = match Percent.decodeText? value with
      | some text => .ok text
      | none => .error (Response.text 400 ("Invalid URL: Invalid UTF-8 in `" ++ name ++ "`")) := by
  cases h : Percent.decodeText? value <;> simp [onlyParameter, undecodable?, h]

theorem Site.handle_of_get {site : Site} {request : Request} {found : Found} {segment : String}
    (get : request.method = "GET")
    (h : site.router.find? (Target.path request.target) = some found)
    (account : found.route.endpoint = .account)
    (single : found.captures = [⟨"account_id", segment⟩]) :
    site.handle request = match Percent.decodeText? segment with
      | some id => respond (site.service.get id) accept
      | none => .done (Response.text 400 "Invalid URL: Invalid UTF-8 in `account_id`") := by
  simp only [handle, h, handleFound, account, handleAccount, get, decide_true, Bool.true_or,
    if_true, getAccount, withParameter, single, onlyParameter_single]
  cases Percent.decodeText? segment <;> rfl

end Http

namespace Settings

theorem validBase_of_ofEnvironment {env : Environment} {settings : Settings}
    (accepted : ofEnvironment env = .ok settings) : validBase settings.basePath = true := by
  obtain ⟨read, -, rest⟩ := Json.exists_of_bind_eq_ok accepted
  obtain ⟨_, valid, same⟩ := Json.exists_of_bind_eq_ok rest
  obtain rfl := Except.ok.inj same
  unfold validate at valid
  split_ifs at valid with bucket keyfile base port
  simpa using base

end Settings

open Http

/-- Of the base paths that settings accept, the plain ones other than that of the health check serve
their account paths and no others do; requests reach these paths exactly if no query or fragment
begins in the base path. Below plain base paths the routes can be built, and every account path,
asked for as it stands, reaches the account of the id that its last segment names. -/
theorem accepted_bases_served {env : Environment} {settings : Settings}
    (accepted : Settings.ofEnvironment env = .ok settings) :
    let base := settings.basePath
    (Router.ServesAccounts base ↔ Plain base.toList ∧ base ≠ "/health") ∧
      (Router.ReachesAccounts base ↔
        Plain base.toList ∧ base ≠ "/health" ∧ ∀ c ∈ base.toList, c ≠ '?' ∧ c ≠ '#') ∧
      (Plain base.toList → base ≠ "/health" → ∀ (service : Service) (docs : Option ApiDocument),
        ∃ site, Site.build service docs base = .ok site ∧
          ∀ (request : Request) (segment : String), request.method = "GET" →
            Target.path request.target = base ++ "/" ++ segment → IsSegment segment →
            segment ≠ "swagger" → base ++ "/" ++ segment ≠ "/health" →
            site.handle request = match Percent.decodeText? segment with
              | some id => respond (service.get id) accept
              | none =>
                .done (Response.text 400 "Invalid URL: Invalid UTF-8 in `account_id`")) := by
  intro base
  have rooted := rooted_of_validBase (Settings.validBase_of_ofEnvironment accepted)
  refine ⟨Router.servesAccounts_iff rooted, Router.reachesAccounts_iff rooted,
    fun plain free service docs => ?_⟩
  have built := Router.build_eq_below rooted plain free
  refine ⟨⟨service, docs, base, Router.below base⟩, by simp [Site.build, base, built], ?_⟩
  intro request segment get asked single other unchecked
  obtain ⟨route, h, account⟩ := Router.find?_of_leads free (.account single other unchecked)
  rw [← asked] at h
  exact Site.handle_of_get get h account rfl

theorem accepted_bases_served_default :
    let env : Environment := [("BUCKET", "b"), ("KEYFILE", "k")]
    (Settings.ofEnvironment env).map (·.basePath) = .ok "/identrust" ∧
      Router.ServesAccounts "/identrust" ∧ Router.ReachesAccounts "/identrust" := by
  intro env
  have base : (Settings.ofEnvironment env).map (·.basePath) = .ok "/identrust" := by decide +kernel
  refine ⟨base, ?_⟩
  cases accepted : Settings.ofEnvironment env with
  | error e =>
    rw [accepted] at base
    cases base
  | ok settings =>
    rw [accepted] at base
    obtain same := Except.ok.inj base
    obtain ⟨served, reached, -⟩ := accepted_bases_served accepted
    dsimp only at same served reached
    rw [same] at served reached
    exact ⟨served.2 ⟨by simp [Plain], by simp⟩, reached.2 ⟨by simp [Plain], by simp, by simp⟩⟩

/-- Settings accept base paths whose routes cannot be built, and others whose account paths have two
parameters where one is expected. -/
theorem accepted_bases_not_served :
    ((Settings.ofEnvironment [("BUCKET", "b"), ("KEYFILE", "k"), ("BASE_PATH", "/health")]).map
        (·.basePath) = .ok "/health" ∧
      Router.build "/health" = .error (.overlap "/health")) ∧
    ((Settings.ofEnvironment [("BUCKET", "b"), ("KEYFILE", "k"), ("BASE_PATH", "/:tenant")]).map
        (·.basePath) = .ok "/:tenant" ∧
      (Router.build "/:tenant").map (fun router => (router.find? "/:tenant/a").map (·.captures)) =
        .ok (some [⟨"tenant", ":tenant"⟩, ⟨"account_id", "a"⟩]) ∧
      onlyParameter [⟨"tenant", ":tenant"⟩, ⟨"account_id", "a"⟩] = .error (Response.text 500
        ("Wrong number of path arguments for `Path`. Expected 1 but got 2. Note that multiple " ++
          "parameters must be extracted with a tuple `Path<(_, _)>` or a struct " ++
          "`Path<YourParams>`"))) := by
  refine ⟨⟨?_, ?_⟩, ?_, ?_, ?_⟩ <;> decide +kernel

end AccountVault
