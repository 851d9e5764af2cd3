import Mathlib
import AccountVault.Proofs.Http.Patterns

/-!
# The routes below a base path

Building adds one route for each pattern and succeeds exactly if every pattern can be read and no
two are read alike. Below a plain base path the patterns are those of `Router.below`, unless the
base path is that of the health check. No route has a literal where an earlier one has a parameter,
so the first route that matches a path is the one that is found.
-/

namespace AccountVault.Http

namespace Route

def fixed (text : String) (endpoint : Endpoint) : Route := ⟨text.toList.map .literal, endpoint⟩

def ending (text name : String) (endpoint : Endpoint) : Route :=
  ⟨text.toList.map .literal ++ [.parameter name], endpoint⟩

theorem pattern_fixed_inj {text other : String} {endpoint endpoint' : Endpoint} :
    (fixed text endpoint).pattern = (fixed other endpoint').pattern ↔ text = other := by
  have injective : Function.Injective Piece.literal := by
    intro c d same
    injection same
  simp [fixed, injective.list_map.eq_iff, String.toList_inj]

theorem pattern_ending_inj {text other name name' : String} {endpoint endpoint' : Endpoint} :
    (ending text name endpoint).pattern = (ending other name' endpoint').pattern ↔
      text = other ∧ name = name' := by
  have same := @pattern_fixed_inj text other endpoint endpoint'
  simp only [fixed] at same
  simp [ending, same]

theorem pattern_fixed_ne_ending {text other name : String} {endpoint endpoint' : Endpoint} :
    (fixed text endpoint).pattern ≠ (ending other name endpoint').pattern := by
  intro same
  have parameters := congrArg (List.countP Piece.isParameter) same
  simp [fixed, ending, List.countP_map, Piece.isParameter, Function.comp_def] at parameters

end Route

def Router.below (base : String) : Router where
  routes :=
    [.fixed "/health" .health, .fixed (base ++ "/swagger") .docsPage,
      .ending (base ++ "/swagger/") "file_name" .docsFile,
      .ending (base ++ "/") "account_id" .account, .fixed (base ++ "/") .list] ++
    (if base.isEmpty then [] else [.fixed base .list])

def Rooted (base : String) : Prop := base = "" ∨ base.startsWith "/" = true

namespace Router

def Reads (entry : String × Endpoint) (route : Route) : Prop :=
  Pattern.parse entry.1 = .ok route.pattern ∧ entry.2 = route.endpoint

theorem add_eq_ok_iff {old new : List Route} {entry : String × Endpoint} :
    add old entry.1 entry.2 = .ok new ↔ ∃ route, Reads entry route ∧
      (∀ earlier ∈ old, earlier.pattern ≠ route.pattern) ∧ new = old ++ [route] := by
  unfold add Reads
  cases h : Pattern.parse entry.1 with
  | error e => simp
  | ok pieces =>
    simp only [List.any_eq_true, decide_eq_true_eq, Except.ok.injEq]
    constructor
    · intro built
      split_ifs at built with taken
      refine ⟨⟨pieces, entry.2⟩, ⟨rfl, rfl⟩, ?_, (Except.ok.inj built).symm⟩
      intro earlier mem same
      exact taken ⟨earlier, mem, same⟩
    · rintro ⟨⟨_, _⟩, ⟨rfl, rfl⟩, fresh, rfl⟩
      rw [if_neg]
      rintro ⟨earlier, mem, same⟩
      exact fresh earlier mem same

theorem nodup_snoc {old : List Route} {route : Route} :
    ((old ++ [route]).map Route.pattern).Nodup ↔ (old.map Route.pattern).Nodup ∧
      ∀ earlier ∈ old, earlier.pattern ≠ route.pattern := by
  simp [List.nodup_append]

theorem addAll_eq_ok_iff {old new : List Route} {patterns : List (String × Endpoint)}
    (distinct : (old.map Route.pattern).Nodup) :
    addAll old patterns = .ok new ↔ ∃ added, new = old ++ added ∧
      List.Forall₂ Reads patterns added ∧ (new.map Route.pattern).Nodup := by
  induction patterns generalizing old with
  | nil =>
    simp only [addAll, Except.ok.injEq, List.forall₂_nil_left_iff]
    constructor
    · rintro rfl
      exact ⟨[], by simp, rfl, distinct⟩
    · rintro ⟨added, rfl, rfl, -⟩
      simp
  | cons entry patterns ih =>
    constructor
    · intro built
      rw [addAll] at built
      cases first : add old entry.1 entry.2 with
      | error e => simp [first] at built
      | ok middle =>
        obtain ⟨route, reads, fresh, rfl⟩ := add_eq_ok_iff.1 first
        simp only [first] at built
        obtain ⟨added, rfl, rest, whole⟩ := (ih (nodup_snoc.2 ⟨distinct, fresh⟩)).1 built
        exact ⟨route :: added, by simp, .cons reads rest, whole⟩
    · rintro ⟨_, rfl, _ | @⟨_, route, _, added, reads, rest⟩, whole⟩
      have start : ((old ++ [route]).map Route.pattern).Nodup := by
        rw [List.append_cons, List.map_append] at whole
        exact whole.of_append_left
      have first := add_eq_ok_iff.2 ⟨route, reads, (nodup_snoc.1 start).2, rfl⟩
      simp only [addAll, first]
      exact (ih start).2 ⟨added, List.append_cons .., rest, whole⟩

theorem build_eq_ok_iff {base : String} {router : Router} :
    build base = .ok router ↔ List.Forall₂ Reads (patterns base) router.routes ∧
      (router.routes.map Route.pattern).Nodup := by
  have all := @addAll_eq_ok_iff [] router.routes (patterns base) (by simp)
  simp only [List.nil_append, exists_eq_left'] at all
  rw [← all, build]
  cases addAll [] (patterns base) with
  | error e => simp
  | ok routes =>
    simp only [Except.ok.injEq]
    exact ⟨fun built => built ▸ rfl, fun same => congrArg Router.mk same⟩

theorem exists_of_mem_left {α β : Type} {R : α → β → Prop} {first : List α} {second : List β}
    (related : List.Forall₂ R first second) {a : α} (mem : a ∈ first) : ∃ b ∈ second, R a b := by
  induction related with
  | nil => cases mem
  | cons head tail ih =>
    rcases List.mem_cons.1 mem with rfl | mem
    · exact ⟨_, by simp, head⟩
    · obtain ⟨b, mem, rest⟩ := ih mem
      exact ⟨b, List.mem_cons_of_mem _ mem, rest⟩

variable {base : String}

theorem startsWith_append {text : String} (rooted : Rooted base)
    (slash : "/".toList <+: text.toList) : (base ++ text).startsWith "/" = true := by
  rw [String.startsWith_string_iff, String.toList_append]
  rcases rooted with rfl | rooted
  · exact slash
  · exact (String.startsWith_string_iff.1 rooted).trans (List.prefix_append _ _)

theorem plain_below {text : String} (plain : Plain base.toList) (simple : Plain text.toList) :
    Plain (base ++ text).toList := by
  rw [String.toList_append]
  exact plain_append.2 ⟨plain, simple⟩

theorem page_ne_health (base : String) : base ++ "/swagger" ≠ "/health" := by
  intro same
  have last := congrArg (fun text => text.toList.getLast?) same
  simp at last

theorem slash_ne_health (base : String) : base ++ "/" ≠ "/health" := by
  intro same
  have last := congrArg (fun text => text.toList.getLast?) same
  simp at last

theorem file_ne_health (base name : String) : base ++ "/swagger/" ++ name ≠ "/health" := by
  intro same
  have slashes := congrArg (fun text => text.toList.count '/') same
  simp at slashes
  omega

theorem build_eq_below (rooted : Rooted base) (plain : Plain base.toList)
    (free : base ≠ "/health") : build base = .ok (below base) := by
  have health : Pattern.parse "/health" = .ok ("/health".toList.map .literal) :=
    Pattern.parse_literals (by simp [String.startsWith_string_iff]) (by simp [Plain])
  have page : Pattern.parse (base ++ "/swagger") =
      .ok ((base ++ "/swagger").toList.map .literal) :=
    Pattern.parse_literals (startsWith_append rooted (by simp))
      (plain_below plain (by simp [Plain]))
  have file : Pattern.parse (base ++ "/swagger/:file_name") =
      .ok ((base ++ "/swagger/").toList.map .literal ++ [.parameter "file_name"]) :=
    Pattern.parse_parameter (startsWith_append rooted (by simp)) (by simp [String.append_assoc])
      (plain_below plain (by simp [Plain])) (by simp [Plain]) (by simp [IsSegment])
  have account : Pattern.parse (base ++ "/:account_id") =
      .ok ((base ++ "/").toList.map .literal ++ [.parameter "account_id"]) :=
    Pattern.parse_parameter (startsWith_append rooted (by simp)) (by simp [String.append_assoc])
      (plain_below plain (by simp [Plain])) (by simp [Plain]) (by simp [IsSegment])
  have list : Pattern.parse (base ++ "/") = .ok ((base ++ "/").toList.map .literal) :=
    Pattern.parse_literals (startsWith_append rooted (by simp))
      (plain_below plain (by simp [Plain]))
  have bare (filled : base ≠ "") : Pattern.parse base = .ok (base.toList.map .literal) :=
    Pattern.parse_literals (rooted.resolve_left filled) plain
  have reads : List.Forall₂ Reads (patterns base) (below base).routes := by
    refine List.rel_append (.cons ⟨health, rfl⟩ (.cons ⟨page, rfl⟩ (.cons ⟨file, rfl⟩
      (.cons ⟨account, rfl⟩ (.cons ⟨list, rfl⟩ .nil))))) ?_
    split_ifs with empty
    · exact .nil
    · exact .cons ⟨bare (by simpa using empty), rfl⟩ .nil
  have distinct : ((below base).routes.map Route.pattern).Nodup := by
    have page := (page_ne_health base).symm
    have slash := (slash_ne_health base).symm
    by_cases empty : base = ""
    · simp [below, Route.pattern_fixed_inj, Route.pattern_ending_inj,
        Route.pattern_fixed_ne_ending, Route.pattern_fixed_ne_ending.symm, empty]
    · simp [below, Route.pattern_fixed_inj, Route.pattern_ending_inj,
        Route.pattern_fixed_ne_ending, Route.pattern_fixed_ne_ending.symm, empty, page, slash,
        free.symm]
  exact build_eq_ok_iff.2 ⟨reads, distinct⟩

theorem rooted_of_startsWith {text : String} (slash : (base ++ text).startsWith "/" = true) :
    Rooted base := by
  rw [String.startsWith_string_iff, String.toList_append] at slash
  by_cases empty : base = ""
  · exact .inl empty
  · refine .inr (String.startsWith_string_iff.2 ?_)
    cases h : base.toList with
    | nil => exact absurd (by simpa using h) empty
    | cons c rest =>
      rw [h, List.cons_append] at slash
      simpa using slash

theorem ne_health_of_build {router : Router} (built : build base = .ok router) :
    base ≠ "/health" := by
  rintro rfl
  obtain ⟨reads, distinct⟩ := build_eq_ok_iff.1 built
  have twice : patterns "/health" = ("/health", .health) :: (patterns "/health").tail := rfl
  rw [twice, List.forall₂_cons_left_iff] at reads
  obtain ⟨first, rest, read, reads, routes⟩ := reads
  obtain ⟨last, mem, again⟩ := exists_of_mem_left reads
    (show ("/health", Endpoint.list) ∈ (patterns "/health").tail by simp [patterns])
  have same : first.pattern = last.pattern := Except.ok.inj (read.1.symm.trans again.1)
  rw [routes, List.map_cons, List.nodup_cons, same] at distinct
  exact distinct.1 (List.mem_map_of_mem mem)

theorem eq_below_of_build {router : Router} (plain : Plain base.toList)
    (built : build base = .ok router) : router = below base := by
  obtain ⟨reads, -⟩ := build_eq_ok_iff.1 built
  obtain ⟨page, -, read, -⟩ := exists_of_mem_left reads
    (show (base ++ "/swagger", Endpoint.docsPage) ∈ patterns base by simp [patterns])
  have rooted : Rooted base := by
    unfold Pattern.parse at read
    split_ifs at read with slash
    exact rooted_of_startsWith slash
  have expected := build_eq_below rooted plain (ne_health_of_build built)
  exact Except.ok.inj (built.symm.trans expected)

theorem foldl_better {found : Found} {others : List Found}
    (unbeaten : ∀ other ∈ others,
      Pattern.beats other.route.pattern found.route.pattern = false) :
    others.foldl better (some found) = some found := by
  induction others with
  | nil => rfl
  | cons other others ih =>
    have kept : better (some found) other = some found := by
      simp [better, unbeaten other (by simp)]
    rw [List.foldl_cons, kept]
    apply ih
    intro next mem
    exact unbeaten next (List.mem_cons_of_mem other mem)

def read? (path : String) (route : Route) : Option Found :=
  (Pattern.captures? route.pattern path.toList).map fun captures => ⟨route, captures⟩

theorem find?_of_ranked {router : Router}
    (ranked : router.routes.Pairwise fun earlier later =>
      Pattern.beats later.pattern earlier.pattern = false) (path : String) :
    router.find? path = router.routes.findSome? (read? path) := by
  have ordered : (router.matching path.toList).Pairwise fun earlier later =>
      Pattern.beats later.route.pattern earlier.route.pattern = false := by
    apply List.Pairwise.filterMap _ _ ranked
    intro earlier later unbeaten found mem other mem'
    obtain ⟨captures, -, rfl⟩ := Option.map_eq_some_iff.1 mem
    obtain ⟨captures', -, rfl⟩ := Option.map_eq_some_iff.1 mem'
    exact unbeaten
  have first : router.routes.findSome? (read? path) = (router.matching path.toList).head? := by
    rw [matching, List.head?_filterMap]
    rfl
  rw [first, find?]
  cases h : router.matching path.toList with
  | nil => rfl
  | cons found others =>
    rw [h, List.pairwise_cons] at ordered
    exact foldl_better ordered.1

theorem ranked_below (base : String) : (below base).routes.Pairwise fun earlier later =>
    Pattern.beats later.pattern earlier.pattern = false := by
  have fixed : ∀ (text : String) (endpoint : Endpoint) (later : Route),
      Pattern.beats later.pattern (Route.fixed text endpoint).pattern = false :=
    fun text endpoint later => Pattern.beats_literals later.pattern text.toList
  have bare : ∀ text name endpoint endpoint', Pattern.beats (Route.fixed base endpoint).pattern
      (Route.ending (base ++ text) name endpoint').pattern = false := by
    intro text name endpoint endpoint'
    have cut := Pattern.beats_literals_append base.toList []
      (text.toList.map .literal ++ [.parameter name])
    simpa [Route.fixed, Route.ending, Pattern.beats] using cut
  have accountFile : Pattern.beats (Route.ending (base ++ "/") "account_id" .account).pattern
      (Route.ending (base ++ "/swagger/") "file_name" .docsFile).pattern = false := by
    simp [Route.ending, Pattern.beats_literals_append, Pattern.beats]
  have listFile : Pattern.beats (Route.fixed (base ++ "/") .list).pattern
      (Route.ending (base ++ "/swagger/") "file_name" .docsFile).pattern = false := by
    simp [Route.fixed, Route.ending, Pattern.beats_literals_append, Pattern.beats]
  have listAccount : Pattern.beats (Route.fixed (base ++ "/") .list).pattern
      (Route.ending (base ++ "/") "account_id" .account).pattern = false := by
    simp [Route.fixed, Route.ending, Pattern.beats_literals_append, Pattern.beats]
  by_cases empty : base.isEmpty
  · simp [below, fixed, accountFile, listFile, listAccount, empty]
  · simp [below, fixed, bare, accountFile, listFile, listAccount, empty]

theorem read?_fixed {text path : String} {endpoint : Endpoint} {found : Found} :
    read? path (.fixed text endpoint) = some found ↔
      path = text ∧ found = ⟨.fixed text endpoint, []⟩ := by
  simp only [read?, Route.fixed, Option.map_eq_some_iff, Pattern.captures?_literals]
  constructor
  · rintro ⟨captures, ⟨rfl, rfl⟩, rfl⟩
    exact ⟨rfl, rfl⟩
  · rintro ⟨rfl, rfl⟩
    exact ⟨[], ⟨rfl, rfl⟩, rfl⟩

theorem read?_ending {text name path : String} {endpoint : Endpoint} {found : Found} :
    read? path (.ending text name endpoint) = some found ↔
      ∃ segment, IsSegment segment ∧ path = text ++ segment ∧
        found = ⟨.ending text name endpoint, [⟨name, segment⟩]⟩ := by
  simp only [read?, Route.ending, Option.map_eq_some_iff, Pattern.captures?_parameter]
  constructor
  · rintro ⟨captures, ⟨segment, single, rfl, rfl⟩, rfl⟩
    exact ⟨segment, single, rfl, rfl⟩
  · rintro ⟨segment, single, rfl, rfl⟩
    exact ⟨_, ⟨segment, single, rfl, rfl⟩, rfl⟩

end Router

end AccountVault.Http
