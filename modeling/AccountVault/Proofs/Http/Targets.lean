import Mathlib
import AccountVault.Http.Target
import AccountVault.Proofs.Http.Routes

/-!
# The path of a target

A target that begins with a slash is its own path unless a character in it begins a query or a
fragment, and then the path is what stands before. A target without such characters is accepted if
none of its characters must be escaped in a path and it is not too long.
-/

namespace AccountVault.Http

variable {base target : String}

theorem Rooted.slash_prefix (rooted : Rooted base) (rest : String) :
    "/".toList <+: (base ++ "/" ++ rest).toList := by
  have start : (base ++ ("/" ++ rest)).startsWith "/" = true :=
    Router.startsWith_append rooted (by simp)
  rwa [String.startsWith_string_iff, ← String.append_assoc] at start

namespace Target

def Bare (text : List Char) : Prop := ∀ c ∈ text, c ≠ '?' ∧ c ≠ '#'

theorem path_cases (slash : "/".toList <+: target.toList) :
    (path target = target ∧ Bare target.toList) ∨
      ∃ c rest, (c = '?' ∨ c = '#') ∧ target.toList = (path target).toList ++ c :: rest := by
  obtain ⟨tail, start⟩ := slash
  have path : (path target).toList = target.toList.takeWhile fun c => c ≠ '?' && c ≠ '#' := by
    rw [Target.path, String.toList_ofList, ← start]
    rfl
  have whole :=
    List.takeWhile_append_dropWhile (p := fun c => c ≠ '?' && c ≠ '#') (l := target.toList)
  rw [← path] at whole
  cases cut : target.toList.dropWhile fun c => c ≠ '?' && c ≠ '#' with
  | nil =>
    rw [cut, List.append_nil] at whole
    refine .inl ⟨String.toList_inj.1 whole, fun c mem => ?_⟩
    simpa using List.dropWhile_eq_nil_iff.1 cut c mem
  | cons c rest =>
    rw [cut] at whole
    refine .inr ⟨c, rest, ?_, whole.symm⟩
    have stop := List.head?_dropWhile_not (fun c => c ≠ '?' && c ≠ '#') target.toList
    rw [cut] at stop
    simpa [imp_iff_not_or, or_comm] using stop

theorem path_of_bare (slash : "/".toList <+: target.toList) (bare : Bare target.toList) :
    path target = target := by
  rcases path_cases slash with ⟨same, -⟩ | ⟨c, rest, ending, cut⟩
  · exact same
  · have whole := bare c (by rw [cut]; simp)
    exact absurd ending (not_or.2 whole)

theorem accepts_of_bare (bare : Bare target.toList) :
    accepts target = true ↔
      (∀ c ∈ target.toList, isPathChar c = true) ∧ target.utf8ByteSize ≤ mostBytes := by
  have all : ∀ c ∈ target.toList, (c ≠ '?' && c ≠ '#') = true := by
    intro c mem
    simpa using bare c mem
  have none : query target.toList = [] := by
    rw [query, List.dropWhile_eq_nil_iff.2 all]
    rfl
  rw [accepts, beforeQuery, List.takeWhile_eq_self_iff.2 all, none]
  simp

theorem bare_and_accepts_iff : Bare target.toList ∧ accepts target = true ↔
    (∀ c ∈ target.toList, isPathChar c = true) ∧ target.utf8ByteSize ≤ mostBytes := by
  constructor
  · rintro ⟨bare, accepted⟩
    exact (accepts_of_bare bare).1 accepted
  · rintro ⟨fine, short⟩
    have bare : Bare target.toList := by
      intro c mem
      have inside := fine c mem
      constructor
      · rintro rfl
        exact absurd inside (by decide)
      · rintro rfl
        exact absurd inside (by decide)
    exact ⟨bare, (accepts_of_bare bare).2 ⟨fine, short⟩⟩

end Target

end AccountVault.Http
