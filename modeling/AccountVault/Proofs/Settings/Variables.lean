import Mathlib
import AccountVault.Settings

/-!
# What the variables put under a name

The paths of several variables can begin with one key. Main statement: what stands under that key in
the tree is a text, a table or a list as the last of these variables has it, and the keys stand in
the order of their last variables. A variable gives a text to the name that it has itself, in lower
case, and makes a table or a list of the name at the front of a longer path. Only a place that
counts from the end of a list can keep variables from having a tree.
-/

namespace AccountVault

namespace Environment

variable {env : Environment} {name written value : String} {entries : List (String × Node)}

theorem Path.steps?_eq_nil_iff {part : Part} {text : List Char} :
    steps? part text = some [] ↔ (part matches .next) ∧ text = [] := by
  fun_induction steps? part text <;> simp_all

theorem Path.steps_eq_nil_iff (name : String) :
    (ofName name).steps = [] ↔ (ofName name).root = lower name := by
  unfold ofName
  cases read : parse? (lower name).toList with
  | none => simp
  | some path =>
    unfold parse? at read
    dsimp only at read
    split_ifs at read
    obtain ⟨steps, scanned, rfl⟩ := Option.map_eq_some_iff.1 read
    have whole := List.takeWhile_append_dropWhile (p := isKeyChar) (l := (lower name).toList)
    rw [Option.getD_some, ← String.toList_inj, String.toList_ofList]
    constructor
    · rintro rfl
      have none := (steps?_eq_nil_iff.1 scanned).2
      rwa [none, List.append_nil] at whole
    · intro same
      have none : (lower name).toList.dropWhile isKeyChar = [] := by
        rw [same] at whole
        simpa using whole
      rw [none] at scanned
      exact (Option.some.inj scanned).symm

def root (written : String) : String := (Path.ofName written).root

/-- Of the variables whose paths begin with the name, this is the last. -/
def Decides (env : Environment) (name written value : String) : Prop :=
  ∃ before after, env = before ++ (written, value) :: after ∧ root written = name ∧
    ∀ later ∈ after, root later.1 ≠ name

def last? (env : Environment) (name : String) : Option (String × String) :=
  env.reverse.find? fun x => root x.1 = name

theorem last?_eq_some_iff :
    env.last? name = some (written, value) ↔ env.Decides name written value := by
  rw [last?, List.find?_eq_some_iff_append, Decides]
  constructor
  · rintro ⟨here, after, before, parts, later⟩
    refine ⟨before.reverse, after.reverse, ?_, by simpa using here, by simpa using later⟩
    rw [← List.reverse_inj, parts]
    simp
  · rintro ⟨before, after, parts, here, later⟩
    refine ⟨by simpa using here, after.reverse, before.reverse, ?_, by simpa using later⟩
    rw [parts]
    simp

theorem last?_append_singleton (env : Environment) (x : String × String) (name : String) :
    last? (env ++ [x]) name = if root x.1 = name then some x else env.last? name := by
  rw [last?, List.reverse_concat, List.find?_cons]
  by_cases same : root x.1 = name <;> simp [same, last?]

namespace Node

theorem map_fst_insert (key : String) (node : Node) (entries : List (String × Node)) :
    (insert key node entries).map Prod.fst = (entries.map Prod.fst).filter (· ≠ key) ++ [key] := by
  rw [insert, List.map_append, List.filter_map]
  rfl

theorem lookup_filter_ne {key : String} (other : name ≠ key) (entries : List (String × Node)) :
    (entries.filter (·.1 ≠ key)).lookup name = entries.lookup name := by
  induction entries with
  | nil => rfl
  | cons x entries ih =>
    by_cases here : x.1 = key
    · have skipped : name ≠ x.1 := fun same => other (same.trans here)
      rw [List.filter_cons_of_neg (by simpa using here), ih, List.lookup_cons,
        beq_eq_false_iff_ne.2 skipped]
    · rw [List.filter_cons_of_pos (by simpa using here), List.lookup_cons, List.lookup_cons, ih]

theorem lookup_insert (key : String) (node : Node) (entries : List (String × Node))
    (name : String) : (insert key node entries).lookup name =
      if key = name then some node else entries.lookup name := by
  rw [insert, List.lookup_append]
  split_ifs with same
  · subst same
    have none : (entries.filter (·.1 ≠ key)).lookup key = none := by
      rw [List.lookup_eq_none_iff]
      intro x mem
      have other : x.1 ≠ key := by simpa using (List.mem_filter.1 mem).2
      simpa using other.symm
    rw [none, Option.none_or, List.lookup_cons_self]
  · rw [lookup_filter_ne (Ne.symm same), List.lookup_cons, beq_eq_false_iff_ne.2 (Ne.symm same)]
    exact Option.or_none

theorem lookup_of_nodup (single : (entries.map Prod.fst).Nodup) {entry : String × Node}
    (mem : entry ∈ entries) : entries.lookup entry.1 = some entry.2 := by
  induction entries with
  | nil => cases mem
  | cons first entries ih =>
    rw [List.map_cons, List.nodup_cons] at single
    rcases List.mem_cons.1 mem with rfl | later
    · exact List.lookup_cons_self
    · have other : entry.1 ≠ first.1 := fun same => single.1 (same ▸ List.mem_map_of_mem later)
      rw [List.lookup_cons, beq_eq_false_iff_ne.2 other]
      exact ih single.2 later

/-- What a variable with these steps behind the key leaves under the key. -/
inductive Fits (value : String) : List Step → Node → Prop
  | text : Fits value [] (.text value)
  | table {key : String} {steps : List Step} {entries : List (String × Node)} :
    Fits value (.key key :: steps) (.table entries)
  | list {index : Int} {steps : List Step} {items : List (Option Node)} :
    Fits value (.place index :: steps) (.list items)

theorem fits_of_put? {steps : List Step} {old : Option Node} {node : Node}
    (h : put? value steps old = some node) : Fits value steps node := by
  cases steps with
  | nil =>
    obtain rfl := Option.some.inj h
    exact .text
  | cons step steps =>
    cases step with
    | key name =>
      obtain ⟨inner, -, rfl⟩ := Option.map_eq_some_iff.1 h
      exact .table
    | place index =>
      rw [put?] at h
      split at h
      · cases h
      · obtain ⟨inner, -, rfl⟩ := Option.map_eq_some_iff.1 h
        exact .list

theorem exists_put? {steps : List Step} (forward : ∀ index, .place index ∈ steps → 0 ≤ index)
    (value : String) (old : Option Node) : ∃ node, put? value steps old = some node := by
  induction steps generalizing old with
  | nil => exact ⟨_, rfl⟩
  | cons step steps ih =>
    have later := ih fun index mem => forward index (List.mem_cons_of_mem step mem)
    cases step with
    | key name =>
      obtain ⟨inner, put⟩ := later ((Node.entries old).lookup name)
      exact ⟨_, by rw [put?, put, Option.map_some]⟩
    | place index =>
      have position : position? (items old).length index = some index.toNat :=
        if_pos (forward index (by simp))
      obtain ⟨inner, put⟩ := later (items old)[index.toNat]?.join
      exact ⟨_, by rw [put?, position]; dsimp only; rw [put, Option.map_some]⟩

end Node

theorem entries?_append_singleton (env : Environment) (x : String × String) :
    entries? (env ++ [x]) = env.entries?.bind fun entries => grow? entries x := by
  simp [entries?]

theorem exists_entries?_of_forward
    (forward : ∀ x ∈ env, ∀ index, .place index ∈ (Path.ofName x.1).steps → 0 ≤ index) :
    ∃ entries, env.entries? = some entries := by
  induction env using List.reverseRecOn with
  | nil => exact ⟨[], rfl⟩
  | append_singleton env x ih =>
    obtain ⟨entries, grown⟩ := ih fun y mem => forward y (List.mem_append_left _ mem)
    obtain ⟨node, put⟩ := Node.exists_put? (forward x (by simp)) x.2
      (entries.lookup (Path.ofName x.1).root)
    exact ⟨Node.insert (Path.ofName x.1).root node entries, by
      rw [entries?_append_singleton, grown, Option.bind_some, grow?, put, Option.map_some]⟩

def roots (env : Environment) : List String := (env.map fun x => root x.1).dedup

theorem dedup_append_singleton (names : List String) (name : String) :
    (names ++ [name]).dedup = names.dedup.filter (· ≠ name) ++ [name] := by
  induction names with
  | nil => simp
  | cons first names ih =>
    rw [List.cons_append]
    by_cases again : first ∈ names
    · rw [List.dedup_cons_of_mem again, List.dedup_cons_of_mem (List.mem_append_left _ again), ih]
    · by_cases same : first = name
      · subst same
        rw [List.dedup_cons_of_mem (by simp), ih, List.dedup_cons_of_notMem again,
          List.filter_cons_of_neg (by simp)]
      · rw [List.dedup_cons_of_notMem again, List.dedup_cons_of_notMem (by simp [again, same]), ih,
          List.filter_cons_of_pos (by simpa using same), List.cons_append]

/-- The keys at the root of the tree, and what stands under each of them. -/
theorem root_of_entries? (grown : env.entries? = some entries) :
    entries.map Prod.fst = env.roots ∧ ∀ name, Option.Rel
      (fun x node => Node.Fits x.2 (Path.ofName x.1).steps node) (env.last? name)
        (entries.lookup name) := by
  -- The last variable put its own node under its key and left the others as they were.
  induction env using List.reverseRecOn generalizing entries with
  | nil =>
    obtain rfl := Option.some.inj grown
    exact ⟨rfl, fun name => .none⟩
  | append_singleton env x ih =>
    rw [entries?_append_singleton] at grown
    obtain ⟨before, earlier, more⟩ := Option.bind_eq_some_iff.1 grown
    obtain ⟨node, put, rfl⟩ := Option.map_eq_some_iff.1 more
    obtain ⟨keys, under⟩ := ih earlier
    constructor
    · rw [Node.map_fst_insert, keys, roots, roots, List.map_append, List.map_cons, List.map_nil,
        dedup_append_singleton]
      rfl
    · intro name
      rw [Node.lookup_insert, last?_append_singleton]
      change Option.Rel _ _ (if root x.1 = name then some node else before.lookup name)
      split_ifs
      · exact .some (Node.fits_of_put? put)
      · exact under name

theorem lookup_of_mem (grown : env.entries? = some entries) {entry : String × Node}
    (mem : entry ∈ entries) : entries.lookup entry.1 = some entry.2 := by
  refine Node.lookup_of_nodup ?_ mem
  rw [(root_of_entries? grown).1]
  exact List.nodup_dedup _

theorem Decides.unique {written' value' : String} (h : env.Decides name written value)
    (h' : env.Decides name written' value') : written = written' ∧ value = value' := by
  have same := (last?_eq_some_iff.2 h).symm.trans (last?_eq_some_iff.2 h')
  exact Prod.mk.inj (Option.some.inj same)

theorem Decides.mem_roots (h : env.Decides name written value) : name ∈ env.roots := by
  obtain ⟨before, after, rfl, rfl, -⟩ := h
  simp [roots]

theorem Decides.exists_node (grown : env.entries? = some entries)
    (h : env.Decides name written value) : ∃ node, entries.lookup name = some node ∧
      Node.Fits value (Path.ofName written).steps node := by
  have under := (root_of_entries? grown).2 name
  rw [last?_eq_some_iff.2 h] at under
  generalize entries.lookup name = found at under
  cases under with
  | some fits => exact ⟨_, rfl, fits⟩

theorem exists_decides (grown : env.entries? = some entries) {node : Node}
    (found : entries.lookup name = some node) : ∃ written value,
      env.Decides name written value ∧ Node.Fits value (Path.ofName written).steps node := by
  have under := (root_of_entries? grown).2 name
  rw [found] at under
  generalize last : env.last? name = x at under
  cases under with
  | @some x _ fits => exact ⟨x.1, x.2, last?_eq_some_iff.1 last, fits⟩

/-- The name has a text: the variable that decides has this very name, in whatever case. -/
def Sets (env : Environment) (name value : String) : Prop :=
  ∃ written, env.Decides name written value ∧ lower written = name

def Step.branching : Step → Branching
  | key _ => .table
  | place _ => .list

/-- The name has a table or a list: the variable that decides has a longer path. -/
def Branches (env : Environment) (name : String) (found : Branching) : Prop :=
  ∃ written value step steps, env.Decides name written value ∧
    (Path.ofName written).steps = step :: steps ∧ step.branching = found

theorem Decides.steps_eq_nil_iff (h : env.Decides name written value) :
    (Path.ofName written).steps = [] ↔ lower written = name := by
  obtain ⟨-, -, -, rfl, -⟩ := h
  rw [Path.steps_eq_nil_iff, eq_comm]
  rfl

theorem Sets.unique {value' : String} (h : env.Sets name value) (h' : env.Sets name value') :
    value = value' := by
  obtain ⟨written, decides, -⟩ := h
  obtain ⟨written', decides', -⟩ := h'
  exact (decides.unique decides').2

theorem Branches.not_sets {found : Branching} (h : env.Branches name found) :
    ¬env.Sets name value := by
  rintro ⟨written, decides, same⟩
  obtain ⟨written', value', step, steps, decides', parts, -⟩ := h
  obtain ⟨rfl, rfl⟩ := decides.unique decides'
  rw [decides.steps_eq_nil_iff.2 same] at parts
  cases parts

theorem Branches.unique {found found' : Branching} (h : env.Branches name found)
    (h' : env.Branches name found') : found = found' := by
  obtain ⟨written, value, step, steps, decides, parts, rfl⟩ := h
  obtain ⟨written', value', step', steps', decides', parts', rfl⟩ := h'
  obtain ⟨rfl, rfl⟩ := decides.unique decides'
  rw [parts] at parts'
  rw [(List.cons.inj parts').1]

theorem Branches.mem_roots {found : Branching} (h : env.Branches name found) :
    name ∈ env.roots := by
  obtain ⟨written, value, step, steps, decides, -⟩ := h
  exact decides.mem_roots

theorem Sets.mem_roots (h : env.Sets name value) : name ∈ env.roots := by
  obtain ⟨written, decides, -⟩ := h
  exact decides.mem_roots

section

variable (grown : env.entries? = some entries)
include grown

theorem lookup_eq_text_iff : entries.lookup name = some (.text value) ↔ env.Sets name value := by
  constructor
  · intro found
    obtain ⟨written, value', decides, fits⟩ := exists_decides grown found
    generalize steps : (Path.ofName written).steps = parts at fits
    cases fits
    exact ⟨written, decides, decides.steps_eq_nil_iff.1 steps⟩
  · rintro ⟨written, decides, same⟩
    obtain ⟨node, found, fits⟩ := decides.exists_node grown
    rw [decides.steps_eq_nil_iff.2 same] at fits
    cases fits
    exact found

def Node.branching? : Node → Option Branching
  | text _ => none
  | table _ => some .table
  | list _ => some .list

theorem lookup_branching_iff {found : Branching} :
    (entries.lookup name).bind Node.branching? = some found ↔ env.Branches name found := by
  constructor
  · intro h
    obtain ⟨node, under, branching⟩ := Option.bind_eq_some_iff.1 h
    obtain ⟨written, value, decides, fits⟩ := exists_decides grown under
    generalize parts : (Path.ofName written).steps = steps at fits
    cases fits with
    | text => cases branching
    | table => exact ⟨_, _, _, _, decides, parts, Option.some.inj branching⟩
    | list => exact ⟨_, _, _, _, decides, parts, Option.some.inj branching⟩
  · rintro ⟨written, value, step, steps, decides, parts, rfl⟩
    obtain ⟨node, under, fits⟩ := decides.exists_node grown
    rw [parts] at fits
    rw [under]
    cases fits <;> rfl

theorem setting?_iff : env.setting? name = some value ↔ env.Sets name value := by
  rw [← lookup_eq_text_iff grown, setting?, grown, Option.getD_some]
  cases entries.lookup name with
  | none => simp
  | some node => cases node <;> simp

theorem setting?_eq_none_iff : env.setting? name = none ↔ ∀ value, ¬env.Sets name value := by
  rw [Option.eq_none_iff_forall_ne_some]
  exact forall_congr' fun value => not_congr (setting?_iff grown)

end

end Environment

end AccountVault
