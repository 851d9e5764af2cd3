import Mathlib
import AccountVault.Settings
import AccountVault.Proofs.Http.Routes
import AccountVault.Proofs.Session.Failures

/-!
# Where requests go

`Leads` lists the documented paths with the endpoint of each and the values of its parameters. Below
a plain base path the router finds exactly these, and a path leads to one endpoint at most.
Everything else, a method that an endpoint does not have included, is answered as an invalid request
without a call to the store.
-/

namespace AccountVault.Http

variable {base path : String} {endpoint : Endpoint} {captures : List Capture}

inductive Leads (base : String) : (path : String) → Endpoint → List Capture → Prop
  | health : Leads base "/health" .health []
  | docsPage : Leads base (base ++ "/swagger") .docsPage []
  | docsFile {name : String} (segment : IsSegment name) :
    Leads base (base ++ "/swagger/" ++ name) .docsFile [⟨"file_name", name⟩]
  | account {id : String} (segment : IsSegment id) (other : id ≠ "swagger")
      (free : base ++ "/" ++ id ≠ "/health") :
    Leads base (base ++ "/" ++ id) .account [⟨"account_id", id⟩]
  | list : Leads base (base ++ "/") .list []
  | bare (filled : base ≠ "") : Leads base base .list []

namespace Router

theorem read?_fixed_self (text : String) (endpoint : Endpoint) :
    read? text (.fixed text endpoint) = some ⟨.fixed text endpoint, []⟩ :=
  read?_fixed.2 ⟨rfl, rfl⟩

theorem read?_fixed_of_ne {text : String} (other : path ≠ text) :
    read? path (.fixed text endpoint) = none := by
  rw [Option.eq_none_iff_forall_ne_some]
  intro found read
  exact other (read?_fixed.1 read).1

theorem read?_ending_self {segment : String} (single : IsSegment segment) (text name : String)
    (endpoint : Endpoint) : read? (text ++ segment) (.ending text name endpoint) =
      some ⟨.ending text name endpoint, [⟨name, segment⟩]⟩ :=
  read?_ending.2 ⟨segment, single, rfl, rfl⟩

theorem read?_ending_of_ne {text name : String}
    (other : ∀ segment, IsSegment segment → path ≠ text ++ segment) :
    read? path (.ending text name endpoint) = none := by
  rw [Option.eq_none_iff_forall_ne_some]
  intro found read
  obtain ⟨segment, single, same, -⟩ := read?_ending.1 read
  exact other segment single same

theorem find?_of_leads (free : base ≠ "/health") (leads : Leads base path endpoint captures) :
    ∃ route, (below base).find? path = some ⟨route, captures⟩ ∧ route.endpoint = endpoint := by
  rw [find?_of_ranked (ranked_below base)]
  cases leads with
  | health => exact ⟨.fixed "/health" .health, by simp [below, read?_fixed_self], rfl⟩
  | docsPage =>
    have health := @read?_fixed_of_ne _ .health _ (page_ne_health base)
    exact ⟨.fixed (base ++ "/swagger") .docsPage, by simp [below, health, read?_fixed_self], rfl⟩
  | @docsFile name segment =>
    have health := @read?_fixed_of_ne _ .health _ (file_ne_health base name)
    have page : read? (base ++ "/swagger/" ++ name) (.fixed (base ++ "/swagger") .docsPage) =
      none := by
      apply read?_fixed_of_ne
      simp [← String.toList_inj]
    refine ⟨.ending (base ++ "/swagger/") "file_name" .docsFile, ?_, rfl⟩
    simp [below, health, page, read?_ending_self segment]
  | @account id segment other unchecked =>
    have health := @read?_fixed_of_ne _ .health _ unchecked
    have page : read? (base ++ "/" ++ id) (.fixed (base ++ "/swagger") .docsPage) = none := by
      apply read?_fixed_of_ne
      simpa [← String.toList_inj] using other
    have file : read? (base ++ "/" ++ id)
        (.ending (base ++ "/swagger/") "file_name" .docsFile) = none := by
      apply read?_ending_of_ne
      intro name _ same
      have deeper : id.toList = "swagger/".toList ++ name.toList := by
        simpa [← String.toList_inj] using same
      exact segment.2 (by simp [deeper])
    refine ⟨.ending (base ++ "/") "account_id" .account, ?_, rfl⟩
    simp [below, health, page, file, read?_ending_self segment]
  | list =>
    have health := @read?_fixed_of_ne _ .health _ (slash_ne_health base)
    have page : read? (base ++ "/") (.fixed (base ++ "/swagger") .docsPage) = none := by
      apply read?_fixed_of_ne
      simp [← String.toList_inj]
    have file : read? (base ++ "/") (.ending (base ++ "/swagger/") "file_name" .docsFile) =
      none := by
      apply read?_ending_of_ne
      simp [← String.toList_inj]
    have account : read? (base ++ "/") (.ending (base ++ "/") "account_id" .account) = none := by
      apply read?_ending_of_ne
      intro id segment same
      have ends : (base ++ "/").toList = (base ++ "/").toList ++ id.toList := by
        rw [← String.toList_append, ← same]
      exact segment.1 (String.toList_eq_nil_iff.1 (List.self_eq_append_right.1 ends))
    refine ⟨.fixed (base ++ "/") .list, ?_, rfl⟩
    simp [below, health, page, file, account, read?_fixed_self]
  | bare filled =>
    have health := @read?_fixed_of_ne _ .health _ free
    have page : read? base (.fixed (base ++ "/swagger") .docsPage) = none := by
      apply read?_fixed_of_ne
      simp [← String.toList_inj]
    have file : read? base (.ending (base ++ "/swagger/") "file_name" .docsFile) = none := by
      apply read?_ending_of_ne
      simp [← String.toList_inj]
    have account : read? base (.ending (base ++ "/") "account_id" .account) = none := by
      apply read?_ending_of_ne
      simp [← String.toList_inj]
    have list : read? base (.fixed (base ++ "/") .list) = none := by
      apply read?_fixed_of_ne
      simp [← String.toList_inj]
    refine ⟨.fixed base .list, ?_, rfl⟩
    simp [below, health, page, file, account, list, filled, read?_fixed_self]

theorem exists_leads_of_find? {found : Found} (h : (below base).find? path = some found) :
    ∃ endpoint captures, Leads base path endpoint captures := by
  rw [find?_of_ranked (ranked_below base)] at h
  obtain ⟨route, mem, read⟩ := List.exists_of_findSome?_eq_some h
  simp only [below, List.mem_append, List.mem_cons, List.not_mem_nil, or_false] at mem
  rcases mem with (rfl | rfl | rfl | rfl | rfl) | mem
  · obtain ⟨rfl, -⟩ := read?_fixed.1 read
    exact ⟨_, _, .health⟩
  · obtain ⟨rfl, -⟩ := read?_fixed.1 read
    exact ⟨_, _, .docsPage⟩
  · obtain ⟨name, segment, rfl, -⟩ := read?_ending.1 read
    exact ⟨_, _, .docsFile segment⟩
  · obtain ⟨id, segment, rfl, -⟩ := read?_ending.1 read
    -- The two segments that other routes take before.
    by_cases docs : id = "swagger"
    · subst docs
      rw [String.append_assoc]
      exact ⟨_, _, .docsPage⟩
    · by_cases health : base ++ "/" ++ id = "/health"
      · rw [health]
        exact ⟨_, _, .health⟩
      · exact ⟨_, _, .account segment docs health⟩
  · obtain ⟨rfl, -⟩ := read?_fixed.1 read
    exact ⟨_, _, .list⟩
  · split_ifs at mem with empty
    · cases mem
    · obtain rfl := List.mem_singleton.1 mem
      obtain ⟨rfl, -⟩ := read?_fixed.1 read
      exact ⟨_, _, .bare (by simpa using empty)⟩

theorem leads_of_find? (free : base ≠ "/health") {found : Found}
    (h : (below base).find? path = some found) :
    Leads base path found.route.endpoint found.captures := by
  obtain ⟨endpoint, captures, leads⟩ := exists_leads_of_find? h
  obtain ⟨route, h', rfl⟩ := find?_of_leads free leads
  obtain rfl := Option.some.inj (h.symm.trans h')
  exact leads

end Router

theorem Leads.unique (free : base ≠ "/health") (leads : Leads base path endpoint captures)
    {endpoint' : Endpoint} {captures' : List Capture}
    (leads' : Leads base path endpoint' captures') : endpoint = endpoint' := by
  obtain ⟨route, found, rfl⟩ := Router.find?_of_leads free leads
  obtain ⟨route', found', rfl⟩ := Router.find?_of_leads free leads'
  rw [(Found.mk.inj (Option.some.inj (found.symm.trans found'))).1]

namespace Endpoint

/-- The documented paths of an endpoint. -/
def Covers (base path : String) : Endpoint → Prop
  | health => path = "/health"
  | list => path = base ++ "/" ∨ path = base ∧ base ≠ ""
  | docsPage => path = base ++ "/swagger"
  | docsFile => ∃ name, IsSegment name ∧ path = base ++ "/swagger/" ++ name
  | account => ∃ id, IsSegment id ∧ id ≠ "swagger" ∧ path ≠ "/health" ∧ path = base ++ "/" ++ id

def methods : Endpoint → List String
  | account => ["GET", "HEAD", "POST", "PUT", "DELETE"]
  | _ => ["GET", "HEAD"]

theorem covers_iff : endpoint.Covers base path ↔ ∃ captures, Leads base path endpoint captures := by
  constructor
  · intro covers
    cases endpoint with
    | health =>
      obtain rfl := covers
      exact ⟨_, .health⟩
    | docsPage =>
      obtain rfl := covers
      exact ⟨_, .docsPage⟩
    | docsFile =>
      obtain ⟨name, segment, rfl⟩ := covers
      exact ⟨_, .docsFile segment⟩
    | account =>
      obtain ⟨id, segment, other, free, rfl⟩ := covers
      exact ⟨_, .account segment other free⟩
    | list =>
      rcases covers with rfl | ⟨rfl, filled⟩
      · exact ⟨_, .list⟩
      · exact ⟨_, .bare filled⟩
  · rintro ⟨captures, leads⟩
    cases leads with
    | health => rfl
    | docsPage => rfl
    | docsFile segment => exact ⟨_, segment, rfl⟩
    | account segment other free => exact ⟨_, segment, other, free, rfl⟩
    | list => exact .inl rfl
    | bare filled => exact .inr ⟨rfl, filled⟩

end Endpoint

theorem Response.body_coded (response : Response) (request : Request) :
    (response.coded request).body = response.body := by
  unfold coded
  dsimp only
  split_ifs
  · rfl
  · split <;> rfl

theorem Site.handle_of_unsupported {site : Site} {request : Request}
    (unsupported : ∀ found, site.router.find? (Target.path request.target) = some found →
      request.method ∉ found.route.endpoint.methods) :
    ∃ allowed, site.handle request = .done { Response.invalidRequest with
      headers := allowed ++ Response.invalidRequest.headers } := by
  unfold handle
  cases found : site.router.find? (Target.path request.target) with
  | none => exact ⟨[], rfl⟩
  | some found' =>
    have missing := unsupported found' found
    dsimp only [handleFound]
    cases endpoint : found'.route.endpoint with
    | account =>
      rw [endpoint] at missing
      simp only [Endpoint.methods, List.mem_cons, List.not_mem_nil, or_false, not_or] at missing
      obtain ⟨get, head, post, put, delete⟩ := missing
      simp only [handleAccount, get, head, post, put, delete]
      exact ⟨[_], rfl⟩
    | _ =>
      rw [endpoint] at missing
      simp only [Endpoint.methods, List.mem_cons, List.not_mem_nil, or_false, not_or] at missing
      simp only [reading, missing.1, missing.2]
      exact ⟨[_], rfl⟩

theorem rooted_of_validBase (valid : Settings.validBase base = true) : Rooted base := by
  simp only [Settings.validBase, Bool.or_eq_true, String.isEmpty_iff, Bool.and_eq_true] at valid
  exact valid.imp_right And.left

/-- Below an accepted plain base path that is not that of the health check, the routes can be built,
every endpoint is found at its documented paths and nowhere else, no path leads to two endpoints,
and a request for another path or with a method that its endpoint does not have is told that it is
invalid, without a call to the store. -/
theorem routes_as_documented {base : String} (valid : Settings.validBase base = true)
    (plain : Plain base.toList) (free : base ≠ "/health") (service : Service)
    (docs : Option ApiDocument) :
    ∃ site, Site.build service docs base = .ok site ∧
      (∀ path (endpoint : Endpoint),
        (site.router.find? path).map (·.route.endpoint) = some endpoint ↔
          endpoint.Covers base path) ∧
      (∀ path, site.router.find? path = none ↔ ∀ endpoint : Endpoint, ¬endpoint.Covers base path) ∧
      (∀ path (first second : Endpoint), first.Covers base path → second.Covers base path →
        first = second) ∧
      ∀ (faults : Faults) (request : Request) (state : Scripted),
        (∀ endpoint : Endpoint, endpoint.Covers base (Target.path request.target) →
          request.method ∉ endpoint.methods) →
        let report := Session.step ⟨site⟩ faults (.request request) state
        report.state = { state with calls := [] } ∧
          ∃ response, report.result = .response response ∧ response.status = 404 ∧
            response.body = ErrorAnswer.write ⟨"Invalid Request", 404⟩ := by
  have built := Router.build_eq_below (rooted_of_validBase valid) plain free
  have goes : ∀ path (endpoint : Endpoint),
      ((Router.below base).find? path).map (·.route.endpoint) = some endpoint ↔
        endpoint.Covers base path := by
    intro path endpoint
    rw [Endpoint.covers_iff, Option.map_eq_some_iff]
    constructor
    · rintro ⟨found, h, rfl⟩
      exact ⟨_, Router.leads_of_find? free h⟩
    · rintro ⟨captures, leads⟩
      obtain ⟨route, h, rfl⟩ := Router.find?_of_leads free leads
      exact ⟨_, h, rfl⟩
  refine ⟨⟨service, docs, base, Router.below base⟩, by simp [Site.build, built], goes, ?_, ?_, ?_⟩
  · intro path
    rw [← Option.map_eq_none_iff, Option.eq_none_iff_forall_ne_some]
    exact forall_congr' fun endpoint => not_congr (goes path endpoint)
  · intro path first second covers covers'
    obtain ⟨captures, leads⟩ := Endpoint.covers_iff.1 covers
    obtain ⟨captures', leads'⟩ := Endpoint.covers_iff.1 covers'
    exact leads.unique free leads'
  · intro faults request state unsupported
    obtain ⟨allowed, handled⟩ :=
      @Site.handle_of_unsupported ⟨service, docs, base, Router.below base⟩
      request fun found h => unsupported _ ((goes _ _).1 (by rw [h, Option.map_some]))
    simp only [Session.step, Session.exchange, handled, Program.run, Site.answer,
      Option.getD_some, Session.Result.response.injEq, exists_eq_left', true_and]
    rw [Response.status_coded, Response.body_coded]
    exact ⟨rfl, rfl⟩

theorem routes_as_documented_nested :
    ∃ site, Site.build ⟨⟨"bucket", "key"⟩, none⟩ none "/health/swagger" = .ok site ∧
      (site.router.find? "/health/swagger/swagger").map (·.route.endpoint) = some .docsPage ∧
      (site.router.find? "/health/swagger").map (·.route.endpoint) = some .list ∧
      site.router.find? "/health/" = none := by
  obtain ⟨site, built, goes, nowhere, -, -⟩ := routes_as_documented
    (show Settings.validBase "/health/swagger" = true by decide +kernel) (by simp [Plain]) (by simp)
    ⟨⟨"bucket", "key"⟩, none⟩ none
  refine ⟨site, built, (goes _ _).2 rfl, (goes _ _).2 (.inr ⟨rfl, by simp⟩), (nowhere _).2 ?_⟩
  intro endpoint covers
  cases endpoint with
  | health => simp [Endpoint.Covers] at covers
  | docsPage => simp [Endpoint.Covers] at covers
  | docsFile =>
    obtain ⟨name, -, same⟩ := covers
    simp [← String.toList_inj] at same
  | account =>
    obtain ⟨id, -, -, -, same⟩ := covers
    simp [← String.toList_inj] at same
  | list => simp [Endpoint.Covers] at covers

end AccountVault.Http
