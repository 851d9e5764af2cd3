import Mathlib
import AccountVault.Startup
import AccountVault.Proofs.Cipher.KeyTexts
import AccountVault.Proofs.Settings.Texts
import AccountVault.Proofs.Settings.Variables

/-!
# Settings that are accepted, and the error of those that are not

The checks of an environment are made one after the other. The variables must have a tree; then each
key of the tree is read, in the order of the variables, and a setting that is no text or a port that
is no number stops the reading; only then are the texts looked at. `Valid` says which environments
pass all checks, `Check.Passes` says it for each check, and `Check.Reports` which error belongs to a
check that fails. Main statement: an environment is accepted exactly if it is valid, else the error
is that of the first check that fails, and a start-up with accepted settings has no trouble with
their key.
-/

namespace AccountVault

theorem DataKey.ofBase64_trim (text : String) : ofBase64 (Blank.trim text) = ofBase64 text := by
  rw [ofBase64, ofBase64, Blank.trim_trim]

namespace Settings

open Blank (AllBlank)

variable {env : Environment} {entries : List (String × Environment.Node)}

structure Valid (env : Environment) : Prop where
  placed : ∃ entries, env.entries? = some entries
  texts : ∀ name ∈ names, ∀ found, ¬env.Branches name found
  port : ∀ text, env.Sets "port" text →
    ∃ n, 1 ≤ n ∧ n ≤ 65535 ∧ (IsYes text ∧ n = 1 ∨ IsDecimal text n)
  bucket : ∃ text, env.Sets "bucket" text ∧ ¬AllBlank text
  keyfile : ∃ text, env.Sets "keyfile" text ∧ ¬AllBlank text
  base : ∀ text, env.Sets "base_path" text → IsBase text
  key : ∀ text, env.Sets "data_key" text →
    AllBlank text ∨ ∃ bytes : Bytes, bytes.length = 32 ∧ Blank.trim text = Base64.encode bytes

inductive Check where
  | placesInside
  | reads (name : String)
  | bucketGiven
  | keyfileGiven
  | bucketFilled
  | keyfileFilled
  | basePath
  | portPositive
  | dataKey

namespace Check

def whenRead (env : Environment) : List Check :=
  placesInside :: (env.roots.map reads ++ [bucketGiven, keyfileGiven])

def whenValidated : List Check := [bucketFilled, keyfileFilled, basePath, portPositive, dataKey]

def order (env : Environment) : List Check := whenRead env ++ whenValidated

def Passes (env : Environment) : Check → Prop
  | placesInside => ∃ entries, env.entries? = some entries
  | reads name => (name ∈ names → ∀ found, ¬env.Branches name found) ∧
    (name = "port" → ∀ text, env.Sets name text → ∃ n ≤ 65535, Converts text n)
  | bucketGiven => ∃ text, env.Sets "bucket" text
  | keyfileGiven => ∃ text, env.Sets "keyfile" text
  | bucketFilled => ∃ text, env.Sets "bucket" text ∧ ¬AllBlank text
  | keyfileFilled => ∃ text, env.Sets "keyfile" text ∧ ¬AllBlank text
  | basePath => ∀ text, env.Sets "base_path" text → IsBase text
  | portPositive => ∀ text, env.Sets "port" text → ¬Converts text 0
  | dataKey => ∀ text, env.Sets "data_key" text →
    AllBlank text ∨ ∃ bytes : Bytes, bytes.length = 32 ∧ Blank.trim text = Base64.encode bytes

/-- The error of a check that fails. -/
inductive Reports (env : Environment) : Check → SettingsError → Prop
  | placeOutside : Reports env placesInside .placeOutside
  | branching {name : String} {found : Branching} (setting : name ∈ names)
      (branches : env.Branches name found) : Reports env (reads name) (.branching name found)
  | portNotNumber {text : String} (set : env.Sets "port" text) (foreign : ∀ n, ¬Converts text n) :
    Reports env (reads "port") (.portNotNumber text)
  | portTooLarge {text : String} {n : Nat} (set : env.Sets "port" text) (number : Converts text n)
      (large : 65535 < n) : Reports env (reads "port") (.portTooLarge n)
  | bucketMissing : Reports env bucketGiven (.missing "bucket")
  | keyfileMissing : Reports env keyfileGiven (.missing "keyfile")
  | bucketBlank : Reports env bucketFilled (.blank "BUCKET")
  | keyfileBlank : Reports env keyfileFilled (.blank "KEYFILE")
  | basePath : Reports env basePath .basePath
  | portZero : Reports env portPositive .portZero
  | notBase64 {text : String} (set : env.Sets "data_key" text)
      (foreign : ∀ bytes, Blank.trim text ≠ Base64.encode bytes) :
    Reports env dataKey (.dataKey .notBase64)
  | wrongLength {text : String} {bytes : Bytes} (set : env.Sets "data_key" text)
      (encoded : Blank.trim text = Base64.encode bytes) :
    Reports env dataKey (.dataKey (.wrongLength bytes.length))

end Check

def gathered (env : Environment) : Settings where
  bucket := (env.setting? "bucket").getD ""
  keyfile := (env.setting? "keyfile").getD ""
  awsRegion := env.setting? "aws_region"
  dataKey := env.setting? "data_key"
  s3EndpointUrl := env.setting? "s3_endpoint_url"
  port := ((env.setting? "port").bind number?).getD defaultPort
  basePath := (env.setting? "base_path").getD "/identrust"
  apiDocsPath := (env.setting? "api_docs_path").getD "swagger/swagger.json"
  otlpEndpoint := env.setting? "otel_exporter_otlp_endpoint"
  logLevel := (env.setting? "log_level").getD "info"

def Check.fault? (env : Environment) : Check → Option SettingsError
  | placesInside => if env.entries?.isNone then some .placeOutside else none
  | reads name => ((env.entries?.getD []).lookup name).bind (Settings.fault? name)
  | bucketGiven => if (env.setting? "bucket").isNone then some (.missing "bucket") else none
  | keyfileGiven => if (env.setting? "keyfile").isNone then some (.missing "keyfile") else none
  | bucketFilled =>
    if (Blank.filled? (gathered env).bucket).isNone then some (.blank "BUCKET") else none
  | keyfileFilled =>
    if (Blank.filled? (gathered env).keyfile).isNone then some (.blank "KEYFILE") else none
  | basePath => if !validBase (gathered env).basePath then some .basePath else none
  | portPositive => if (gathered env).port = 0 then some .portZero else none
  | dataKey =>
    match (gathered env).key? with
    | .error e => some (.dataKey e)
    | .ok _ => none

theorem findSome?_fault? (grown : env.entries? = some entries) :
    entries.findSome? (fun entry => fault? entry.1 entry.2) =
      (env.roots.map Check.reads).findSome? (·.fault? env) := by
  rw [← (Environment.root_of_entries? grown).1, List.map_map, List.findSome?_map,
    ← List.head?_filterMap, ← List.head?_filterMap]
  refine congrArg _ (List.filterMap_congr fun entry mem => ?_)
  simp only [Function.comp, Check.fault?, grown, Option.getD_some]
  rw [Environment.lookup_of_mem grown mem, Option.bind_some]

theorem read_eq (env : Environment) : read env =
    match (Check.whenRead env).findSome? (·.fault? env) with
    | some e => .error e
    | none => .ok (gathered env) := by
  rw [read, Check.whenRead, List.findSome?_cons, List.findSome?_append]
  cases grown : env.entries? with
  | none => simp [Check.fault?, grown]
  | some entries =>
    have inside : Check.fault? env .placesInside = none := by simp [Check.fault?, grown]
    dsimp only
    rw [inside, findSome?_fault? grown]
    cases (env.roots.map Check.reads).findSome? (·.fault? env) with
    | some e => rfl
    | none =>
      simp only [required, List.findSome?_cons, List.findSome?_nil, Check.fault?, Option.none_or]
      cases bucket : env.setting? "bucket" with
      | none => rfl
      | some b =>
        cases keyfile : env.setting? "keyfile" with
        | none => rfl
        | some k =>
          change Except.ok _ = Except.ok _
          simp [gathered, bucket, keyfile]

theorem validate_gathered (env : Environment) : (gathered env).validate =
    match Check.whenValidated.findSome? (·.fault? env) with
    | some e => .error e
    | none => .ok () := by
  simp only [validate, Check.whenValidated, List.findSome?_cons, List.findSome?_nil, Check.fault?]
  cases (Blank.filled? (gathered env).bucket).isNone with
  | true => rfl
  | false =>
    cases (Blank.filled? (gathered env).keyfile).isNone with
    | true => rfl
    | false =>
      cases validBase (gathered env).basePath with
      | false => rfl
      | true =>
        by_cases port : (gathered env).port = 0
        · simp [port]
        · cases (gathered env).key? <;> simp [port]

theorem ofEnvironment_eq (env : Environment) : ofEnvironment env =
    match (Check.order env).findSome? (·.fault? env) with
    | some e => .error e
    | none => .ok (gathered env) := by
  rw [ofEnvironment, read_eq, Check.order, List.findSome?_append]
  cases (Check.whenRead env).findSome? (·.fault? env) with
  | some e => rfl
  | none =>
    have valid := validate_gathered env
    rw [Option.none_or]
    generalize Check.whenValidated.findSome? (·.fault? env) = found at valid ⊢
    cases found with
    | some e => simp only [bind, Except.bind, valid]
    | none => simp only [bind, Except.bind, pure, Except.pure, valid]

theorem passes_reads_iff {name : String} :
    Check.Passes env (.reads name) ↔ ∀ e, ¬Check.Reports env (.reads name) e := by
  constructor
  · rintro ⟨whole, converts⟩ e reports
    cases reports with
    | branching setting branches => exact whole setting _ branches
    | portNotNumber set foreign =>
      obtain ⟨n, -, number⟩ := converts rfl _ set
      exact foreign n number
    | portTooLarge set number large =>
      obtain ⟨n, small, converts⟩ := converts rfl _ set
      have same := (number?_eq_some_iff.2 converts).symm.trans (number?_eq_some_iff.2 number)
      have := Option.some.inj same
      omega
  · intro quiet
    refine ⟨fun setting found branches => quiet _ (.branching setting branches), ?_⟩
    rintro rfl text set
    by_cases number : ∃ n, Converts text n
    · obtain ⟨n, converts⟩ := number
      refine ⟨n, ?_, converts⟩
      by_contra large
      exact quiet _ (.portTooLarge set converts (by omega))
    · exact absurd (.portNotNumber set (not_exists.1 number)) (quiet _)

theorem valid_iff : Valid env ↔ ∀ check : Check, check.Passes env := by
  constructor
  · intro valid check
    cases check with
    | placesInside => exact valid.placed
    | reads name =>
      refine ⟨valid.texts name, ?_⟩
      rintro rfl text set
      obtain ⟨n, -, small, ⟨yes, rfl⟩ | decimal⟩ := valid.port text set
      · exact ⟨1, small, .yes yes⟩
      · exact ⟨n, small, .decimal decimal⟩
    | portPositive =>
      intro text set zero
      obtain ⟨n, positive, -, ⟨yes, rfl⟩ | decimal⟩ := valid.port text set
      · have one := number?_eq_some_iff.2 (.yes yes)
        rw [number?_eq_some_iff.2 zero] at one
        cases one
      · have same := number?_eq_some_iff.2 (.decimal decimal)
        rw [number?_eq_some_iff.2 zero] at same
        obtain rfl := Option.some.inj same
        omega
    | bucketGiven => exact valid.bucket.imp fun _ => And.left
    | keyfileGiven => exact valid.keyfile.imp fun _ => And.left
    | bucketFilled => exact valid.bucket
    | keyfileFilled => exact valid.keyfile
    | basePath => exact valid.base
    | dataKey => exact valid.key
  · intro passes
    refine ⟨passes .placesInside, fun name => (passes (.reads name)).1, fun text set => ?_,
      passes .bucketFilled, passes .keyfileFilled, passes .basePath, passes .dataKey⟩
    obtain ⟨n, small, converts⟩ := (passes (.reads "port")).2 rfl text set
    have positive : n ≠ 0 := by
      rintro rfl
      exact passes .portPositive text set converts
    cases converts with
    | yes yes => exact ⟨1, le_refl _, small, .inl ⟨yes, rfl⟩⟩
    | no no => exact absurd rfl positive
    | decimal decimal => exact ⟨n, Nat.one_le_iff_ne_zero.2 positive, small, .inr decimal⟩

theorem Check.ite_eq_some_iff {check : Check} {e own : SettingsError} {wrong : Prop}
    [Decidable wrong] (fails : wrong ↔ ¬check.Passes env) (reports : check.Reports env own)
    (only : ∀ e, check.Reports env e → e = own) :
    (if wrong then some own else none) = some e ↔ ¬check.Passes env ∧ check.Reports env e := by
  rw [Option.ite_none_right_eq_some, fails, Option.some.injEq]
  exact and_congr_right fun _ => ⟨fun same => same ▸ reports, fun h => (only e h).symm⟩

theorem Check.exists_reports {check : Check} (fails : ¬check.Passes env) :
    ∃ e, check.Reports env e := by
  cases check with
  | placesInside => exact ⟨_, .placeOutside⟩
  | reads name =>
    rw [passes_reads_iff] at fails
    simpa using fails
  | bucketGiven => exact ⟨_, .bucketMissing⟩
  | keyfileGiven => exact ⟨_, .keyfileMissing⟩
  | bucketFilled => exact ⟨_, .bucketBlank⟩
  | keyfileFilled => exact ⟨_, .keyfileBlank⟩
  | basePath => exact ⟨_, .basePath⟩
  | portPositive => exact ⟨_, .portZero⟩
  | dataKey =>
    simp only [Passes, not_forall] at fails
    obtain ⟨text, set, -⟩ := fails
    by_cases encoded : ∃ bytes, Blank.trim text = Base64.encode bytes
    · obtain ⟨bytes, encoded⟩ := encoded
      exact ⟨_, .wrongLength set encoded⟩
    · exact ⟨_, .notBase64 set (not_exists.1 encoded)⟩

theorem portFault?_eq_some_iff {text : String} (set : env.Sets "port" text) {e : SettingsError} :
    portFault? text = some e ↔ Check.Reports env (.reads "port") e := by
  unfold portFault?
  constructor
  · intro failed
    cases number : number? text with
    | none =>
      obtain rfl : .portNotNumber text = e := by simpa [number] using failed
      refine .portNotNumber set fun n converts => ?_
      rw [number?_eq_some_iff.2 converts] at number
      cases number
    | some n =>
      simp only [number, Option.ite_none_left_eq_some, Option.some.injEq] at failed
      obtain ⟨large, rfl⟩ := failed
      exact .portTooLarge set (number?_eq_some_iff.1 number) (by omega)
  · intro reports
    cases reports with
    | branching setting branches => exact absurd set branches.not_sets
    | portNotNumber set' foreign =>
      obtain rfl := set.unique set'
      have unread : number? text = none := by
        rw [Option.eq_none_iff_forall_ne_some]
        exact fun n read => foreign n (number?_eq_some_iff.1 read)
      simp [unread]
    | @portTooLarge _ n set' number large =>
      obtain rfl := set.unique set'
      have large : ¬n < 65536 := by omega
      simp [number?_eq_some_iff.2 number, large]

theorem fault?_of_branching? {name : String} {node : Environment.Node} {found : Branching}
    (is : node.branching? = some found) :
    fault? name node = if name ∈ names then some (.branching name found) else none := by
  cases node with
  | text => cases is
  | table =>
    cases is
    rfl
  | list =>
    cases is
    rfl

section

variable {name : String} (grown : env.entries? = some entries)
include grown

theorem isNone_setting?_iff :
    (env.setting? name).isNone = true ↔ ¬∃ text, env.Sets name text := by
  rw [Option.isNone_iff_eq_none, Environment.setting?_eq_none_iff grown, not_exists]

theorem isNone_filled?_iff : (Blank.filled? ((env.setting? name).getD "")).isNone = true ↔
    ¬∃ text, env.Sets name text ∧ ¬AllBlank text := by
  simp only [Option.isNone_iff_eq_none, Blank.filled?_eq_none_iff,
    ← Environment.setting?_iff grown]
  cases env.setting? name with
  | none => simp [AllBlank]
  | some text => simp

theorem validBase_gathered_iff :
    validBase (gathered env).basePath = true ↔ Check.Passes env .basePath := by
  simp only [gathered, Check.Passes, validBase_iff, ← Environment.setting?_iff grown]
  cases env.setting? "base_path" with
  | none => simp [IsBase]
  | some text => simp

theorem port_gathered_eq_zero_iff :
    (gathered env).port = 0 ↔ ¬Check.Passes env .portPositive := by
  simp only [gathered, Check.Passes, ← number?_eq_some_iff, ← Environment.setting?_iff grown]
  cases env.setting? "port" with
  | none => simp [defaultPort]
  | some text =>
    simp only [Option.bind_some, Option.some.injEq, forall_eq', not_not]
    cases number? text <;> simp [defaultPort]

theorem fault?_branching_eq_some_iff {node : Environment.Node} {found : Branching}
    {e : SettingsError} (under : entries.lookup name = some node)
    (is : node.branching? = some found) :
    fault? name node = some e ↔ Check.Reports env (.reads name) e := by
  have branches := (Environment.lookup_branching_iff grown).1 (by rw [under]; exact is)
  rw [fault?_of_branching? is, Option.ite_none_right_eq_some, Option.some.injEq]
  constructor
  · rintro ⟨setting, rfl⟩
    exact .branching setting branches
  · intro reports
    cases reports with
    | branching setting branches' => exact ⟨setting, by rw [branches.unique branches']⟩
    | portNotNumber set => exact absurd set branches.not_sets
    | portTooLarge set => exact absurd set branches.not_sets

theorem fault?_reads_eq_some_iff {e : SettingsError} :
    Check.fault? env (.reads name) = some e ↔ Check.Reports env (.reads name) e := by
  rw [Check.fault?, grown, Option.getD_some]
  cases under : entries.lookup name with
  | none =>
    have unset : ∀ value, ¬env.Sets name value := by
      simp [← Environment.lookup_eq_text_iff grown, under]
    have whole : ∀ found, ¬env.Branches name found := by
      simp [← Environment.lookup_branching_iff grown, under]
    refine iff_of_false (by simp) fun reports => ?_
    cases reports with
    | branching setting branches => exact whole _ branches
    | portNotNumber set => exact unset _ set
    | portTooLarge set => exact unset _ set
  | some node =>
    rw [Option.bind_some]
    cases node with
    | table => exact fault?_branching_eq_some_iff grown under rfl
    | list => exact fault?_branching_eq_some_iff grown under rfl
    | text value =>
      have set := (Environment.lookup_eq_text_iff grown).1 under
      by_cases port : name = "port"
      · subst port
        exact portFault?_eq_some_iff set
      · refine iff_of_false (by simp [fault?, port]) fun reports => ?_
        cases reports with
        | branching setting branches => exact branches.not_sets set
        | portNotNumber => exact port rfl
        | portTooLarge => exact port rfl

theorem key?_gathered_cases :
    ((∀ text, env.Sets "data_key" text → AllBlank text) ∧ (gathered env).key? = .ok none) ∨
      ∃ text, env.Sets "data_key" text ∧ ¬AllBlank text ∧
        (gathered env).key? = (DataKey.ofBase64 text).map some := by
  simp only [← Environment.setting?_iff grown, key?, gathered, filled?]
  cases env.setting? "data_key" with
  | none => exact .inl ⟨by simp, rfl⟩
  | some text =>
    rw [Option.bind_some]
    by_cases blank : AllBlank text
    · rw [Blank.filled?_eq_none_iff.2 blank]
      exact .inl ⟨by simpa using blank, rfl⟩
    · rw [Blank.filled?_eq_some_iff.2 ⟨blank, rfl⟩]
      refine .inr ⟨text, rfl, blank, ?_⟩
      dsimp only
      rw [DataKey.ofBase64_trim]
      cases DataKey.ofBase64 text <;> rfl

theorem key?_gathered_eq_error_iff {e : KeyError} : (gathered env).key? = .error e ↔
    ¬Check.Passes env .dataKey ∧ Check.Reports env .dataKey (.dataKey e) := by
  rcases key?_gathered_cases grown with ⟨blank, key⟩ | ⟨text, set, filled, key⟩
  · rw [key]
    constructor
    · rintro ⟨⟩
    · rintro ⟨fails, -⟩
      exact absurd (fun text set => .inl (blank text set)) fails
  · have passes : Check.Passes env .dataKey ↔ ∃ bytes : Bytes, bytes.length = 32 ∧
        Blank.trim text = Base64.encode bytes := by
      constructor
      · exact fun all => (all text set).resolve_left filled
      · intro encoded other set'
        rw [← set.unique set']
        exact .inr encoded
    have error : (gathered env).key? = .error e ↔ DataKey.ofBase64 text = .error e := by
      rw [key]
      cases DataKey.ofBase64 text <;> simp [Except.map]
    rw [error, passes]
    constructor
    · intro failed
      refine ⟨?_, ?_⟩
      · rintro ⟨bytes, length, encoded⟩
        have read : DataKey.ofBase64 text = .ok ⟨bytes, length⟩ :=
          DataKey.ofBase64_eq_ok_iff.2 encoded
        rw [read] at failed
        cases failed
      · cases e with
        | notBase64 => exact .notBase64 set (DataKey.ofBase64_eq_notBase64_iff.1 failed)
        | wrongLength n =>
          obtain ⟨-, bytes, rfl, encoded⟩ := DataKey.ofBase64_eq_wrongLength_iff.1 failed
          exact .wrongLength set encoded
    · rintro ⟨fails, reports⟩
      cases reports with
      | notBase64 set' foreign =>
        rw [← set.unique set'] at foreign
        exact DataKey.ofBase64_eq_notBase64_iff.2 foreign
      | @wrongLength _ bytes set' encoded =>
        rw [← set.unique set'] at encoded
        refine DataKey.ofBase64_eq_wrongLength_iff.2 ⟨fun length => ?_, bytes, rfl, encoded⟩
        exact fails ⟨bytes, length, encoded⟩

/-- A check finds a fault exactly if it fails, and then the fault is the error that it reports. -/
theorem Check.fault?_eq_some_iff (check : Check) {e : SettingsError} :
    check.fault? env = some e ↔ ¬check.Passes env ∧ check.Reports env e := by
  cases check with
  | placesInside =>
    rw [fault?]
    refine ite_eq_some_iff ?_ .placeOutside (by rintro _ ⟨⟩; rfl)
    simp [Passes, grown]
  | reads name =>
    rw [fault?_reads_eq_some_iff grown, passes_reads_iff, not_forall_not]
    exact ⟨fun reports => ⟨⟨e, reports⟩, reports⟩, And.right⟩
  | bucketGiven =>
    rw [fault?]
    exact ite_eq_some_iff (isNone_setting?_iff grown) .bucketMissing (by rintro _ ⟨⟩; rfl)
  | keyfileGiven =>
    rw [fault?]
    exact ite_eq_some_iff (isNone_setting?_iff grown) .keyfileMissing (by rintro _ ⟨⟩; rfl)
  | bucketFilled =>
    rw [fault?]
    exact ite_eq_some_iff (isNone_filled?_iff grown) .bucketBlank (by rintro _ ⟨⟩; rfl)
  | keyfileFilled =>
    rw [fault?]
    exact ite_eq_some_iff (isNone_filled?_iff grown) .keyfileBlank (by rintro _ ⟨⟩; rfl)
  | basePath =>
    rw [fault?]
    refine ite_eq_some_iff ?_ .basePath (by rintro _ ⟨⟩; rfl)
    rw [← validBase_gathered_iff grown, Bool.not_eq_true', Bool.not_eq_true]
  | portPositive =>
    rw [fault?]
    exact ite_eq_some_iff (port_gathered_eq_zero_iff grown) .portZero (by rintro _ ⟨⟩; rfl)
  | dataKey =>
    constructor
    · intro found
      rw [fault?] at found
      cases key : (gathered env).key? with
      | ok _ => simp [key] at found
      | error cause =>
        obtain rfl : .dataKey cause = e := by simpa [key] using found
        exact (key?_gathered_eq_error_iff grown).1 key
    · rintro ⟨fails, reports⟩
      obtain ⟨cause, rfl⟩ : ∃ cause, e = .dataKey cause := by cases reports <;> exact ⟨_, rfl⟩
      rw [fault?, (key?_gathered_eq_error_iff grown).2 ⟨fails, reports⟩]

theorem Check.fault?_eq_none_iff (check : Check) :
    check.fault? env = none ↔ check.Passes env := by
  rw [Option.eq_none_iff_forall_ne_some]
  simp only [ne_eq, fault?_eq_some_iff grown, not_and]
  constructor
  · intro quiet
    by_contra fails
    obtain ⟨e, reports⟩ := exists_reports fails
    exact quiet e fails reports
  · exact fun passes e fails => absurd passes fails

end

theorem ofEnvironment_eq_error_iff {e : SettingsError} : ofEnvironment env = .error e ↔
    ∃ before check later, Check.order env = before ++ check :: later ∧
      (∀ earlier ∈ before, earlier.Passes env) ∧ ¬check.Passes env ∧ check.Reports env e := by
  have found : ofEnvironment env = .error e ↔
      (Check.order env).findSome? (·.fault? env) = some e := by
    rw [ofEnvironment_eq]
    cases (Check.order env).findSome? (·.fault? env) <;> simp
  rw [found]
  cases grown : env.entries? with
  | none =>
    -- Nothing comes before the check that fails, and it has one error only.
    have fails : ¬Check.Passes env .placesInside := by simp [Check.Passes, grown]
    have first : (Check.order env).findSome? (·.fault? env) = some .placeOutside := by
      simp [Check.order, Check.whenRead, Check.fault?, grown]
    rw [first]
    constructor
    · rintro ⟨⟩
      exact ⟨[], .placesInside, _, rfl, by simp, fails, .placeOutside⟩
    · rintro ⟨before, check, later, row, passed, -, reports⟩
      cases before with
      | nil =>
        obtain ⟨rfl, -⟩ := List.cons.inj row
        cases reports
        rfl
      | cons head before =>
        obtain ⟨rfl, -⟩ := List.cons.inj row
        exact absurd (passed _ (by simp)) fails
  | some entries =>
    rw [List.findSome?_eq_some_iff]
    simp only [Check.fault?_eq_some_iff grown, Check.fault?_eq_none_iff grown]
    constructor
    · rintro ⟨before, check, later, row, ⟨fails, reports⟩, passed⟩
      exact ⟨before, check, later, row, passed, fails, reports⟩
    · rintro ⟨before, check, later, row, passed, fails, reports⟩
      exact ⟨before, check, later, row, ⟨fails, reports⟩, passed⟩

theorem passes_reads_of_notMem_roots {name : String} (absent : name ∉ env.roots) :
    Check.Passes env (.reads name) :=
  ⟨fun _ _ branches => absent branches.mem_roots, fun _ _ set => absurd set.mem_roots absent⟩

theorem passes_all_iff :
    (∀ check : Check, check.Passes env) ↔ ∀ check ∈ Check.order env, check.Passes env := by
  refine ⟨fun all check _ => all check, fun listed check => ?_⟩
  cases check with
  | reads name =>
    by_cases present : name ∈ env.roots
    · exact listed _ (by simp [Check.order, Check.whenRead, present])
    · exact passes_reads_of_notMem_roots present
  | _ => exact listed _ (by simp [Check.order, Check.whenRead, Check.whenValidated])

theorem ofEnvironment_eq_ok_iff {s : Settings} :
    ofEnvironment env = .ok s ↔ (∀ check : Check, check.Passes env) ∧ s = gathered env := by
  have all : (∀ check : Check, check.Passes env) ↔
      (Check.order env).findSome? (·.fault? env) = none := by
    rw [passes_all_iff, List.findSome?_eq_none_iff]
    cases grown : env.entries? with
    | none =>
      refine iff_of_false (fun passes => ?_) fun quiet => ?_
      · obtain ⟨entries, some⟩ := passes .placesInside (by simp [Check.order, Check.whenRead])
        rw [grown] at some
        cases some
      · have := quiet .placesInside (by simp [Check.order, Check.whenRead])
        simp [Check.fault?, grown] at this
    | some entries => simp only [Check.fault?_eq_none_iff grown]
  rw [all, ofEnvironment_eq]
  cases (Check.order env).findSome? (·.fault? env) <;> simp [eq_comm]

theorem filled?_setting? (grown : env.entries? = some entries) (name : String) :
    (filled? (env.setting? name) = none ↔ ∀ text, env.Sets name text → AllBlank text) ∧
      ∀ value, filled? (env.setting? name) = some value ↔
        ∃ text, env.Sets name text ∧ ¬AllBlank text ∧ value = Blank.trim text := by
  simp only [filled?, ← Environment.setting?_iff grown]
  constructor
  · cases env.setting? name with
    | none => simp
    | some text => simp [Blank.filled?_eq_none_iff]
  · intro value
    cases env.setting? name with
    | none => simp
    | some text => simp [Blank.filled?_eq_some_iff]

theorem key?_of_passes (grown : env.entries? = some entries) (passes : Check.Passes env .dataKey) :
    ∃ key, (gathered env).key? = .ok key ∧
      (key.isSome = true ↔ ∃ text, env.Sets "data_key" text ∧ ¬AllBlank text) := by
  rcases key?_gathered_cases grown with ⟨blank, key⟩ | ⟨text, set, filled, key⟩
  · refine ⟨none, key, ?_⟩
    simpa using blank
  · obtain ⟨bytes, length, encoded⟩ := (passes text set).resolve_left filled
    have read : DataKey.ofBase64 text = .ok ⟨bytes, length⟩ := DataKey.ofBase64_eq_ok_iff.2 encoded
    rw [read] at key
    exact ⟨_, key, by simpa using ⟨text, set, filled⟩⟩

def optionalSettings : List (String × (Settings → Option String)) :=
  [("aws_region", region?), ("s3_endpoint_url", s3Endpoint?),
    ("otel_exporter_otlp_endpoint", spanEndpoint?)]

end Settings

open Settings Blank in
/-- Settings are accepted exactly from a valid environment, and else the error is that of the first
check that fails. Of accepted settings the key can be read again when the service starts, and there
is one exactly if something else than blanks was set; an optional setting is absent if it is not set
or blank, and else counts without the blanks at its ends. -/
theorem settings_accepted_iff_valid (env : Environment) :
    ((∃ s, ofEnvironment env = .ok s) ↔ Valid env) ∧
      (∀ e, ofEnvironment env = .error e ↔
        ∃ before check later, Check.order env = before ++ check :: later ∧
          (∀ earlier ∈ before, earlier.Passes env) ∧ ¬check.Passes env ∧ check.Reports env e) ∧
      ∀ s, ofEnvironment env = .ok s →
        (∃ key, s.key? = .ok key ∧
          (key.isSome = true ↔ ∃ text, env.Sets "data_key" text ∧ ¬AllBlank text) ∧
          ∀ {σ : Type} (around : Startup.Surroundings σ) (state : σ), around.environment = env →
            Startup.run around state = Startup.runWith around s key state) ∧
        ∀ name used, (name, used) ∈ optionalSettings →
          (used s = none ↔ ∀ text, env.Sets name text → AllBlank text) ∧
            ∀ value, used s = some value ↔
              ∃ text, env.Sets name text ∧ ¬AllBlank text ∧ value = trim text := by
  refine ⟨?_, fun e => ofEnvironment_eq_error_iff, fun s accepted => ?_⟩
  · rw [valid_iff]
    simp [ofEnvironment_eq_ok_iff]
  · obtain ⟨passes, rfl⟩ := ofEnvironment_eq_ok_iff.1 accepted
    obtain ⟨entries, grown⟩ := passes .placesInside
    obtain ⟨key, read, given⟩ := key?_of_passes grown (passes .dataKey)
    refine ⟨⟨key, read, given, ?_⟩, ?_⟩
    · intro σ around state same
      rw [Startup.run, same, accepted]
      simp only [read]
    · intro name used listed
      simp only [optionalSettings, List.mem_cons, List.not_mem_nil, or_false,
        Prod.mk.injEq] at listed
      rcases listed with ⟨rfl, rfl⟩ | ⟨rfl, rfl⟩ | ⟨rfl, rfl⟩
      · exact filled?_setting? grown "aws_region"
      · exact filled?_setting? grown "s3_endpoint_url"
      · exact filled?_setting? grown "otel_exporter_otlp_endpoint"

open Settings in
theorem settings_accepted_iff_valid_spellings :
    let env : Environment := [("Port", "+008080"), ("BUCKET", "b"), ("keyfile", "k"),
      ("BASE_PATH", ""), ("DATA_KEY", "\tQkJCQkJCQkJCQkJCQkJCQkJCQkJCQkJCQkJCQkJCQkI=\n"),
      ("Aws_Region", " eu ")]
    let halted : Environment := [("BUCKET", "b"), ("PORT", "Off"), ("KEYFILE", "\u3000")]
    (Valid env ∧ ∃ s, ofEnvironment env = .ok s ∧ s.port = 8080 ∧ s.region? = some "eu" ∧
      ∃ key, s.key? = .ok (some key)) ∧
    ∃ before check later, Check.order halted = before ++ check :: later ∧ ¬check.Passes halted ∧
      check.Reports halted (.blank "KEYFILE") := by
  intro env halted
  obtain ⟨valid, -, accepted⟩ := settings_accepted_iff_valid env
  obtain ⟨-, refused, -⟩ := settings_accepted_iff_valid halted
  have error : ofEnvironment halted = .error (.blank "KEYFILE") := by decide +kernel
  constructor
  · cases read : ofEnvironment env with
    | error e =>
      have fine : (ofEnvironment env).toOption.isSome = true := by decide +kernel
      rw [read] at fine
      cases fine
    | ok s =>
      have port : (ofEnvironment env).map (·.port) = .ok 8080 := by decide +kernel
      rw [read] at port
      obtain ⟨⟨key, again, given, -⟩, used⟩ := accepted s read
      refine ⟨valid.1 ⟨s, read⟩, s, rfl, Except.ok.inj port, ?_, ?_⟩
      · have region : env.last? "aws_region" = some ("Aws_Region", " eu ") := by decide +kernel
        refine ((used "aws_region" region? (by simp [optionalSettings])).2 "eu").2
          ⟨" eu ", ⟨"Aws_Region", Environment.last?_eq_some_iff.1 region, by decide +kernel⟩, ?_,
            by decide +kernel⟩
        intro blank
        exact absurd (blank 'e' (by simp)) (by decide)
      · have last : env.last? "data_key" =
            some ("DATA_KEY", "\tQkJCQkJCQkJCQkJCQkJCQkJCQkJCQkJCQkJCQkJCQkI=\n") := by
          decide +kernel
        have filled : ∃ text, env.Sets "data_key" text ∧ ¬Blank.AllBlank text := by
          refine ⟨_, ⟨_, Environment.last?_eq_some_iff.1 last, by decide +kernel⟩, ?_⟩
          intro blank
          exact absurd (blank 'Q' (by simp)) (by decide)
        obtain ⟨held, rfl⟩ := Option.isSome_iff_exists.1 (given.2 filled)
        exact ⟨held, again⟩
  · obtain ⟨before, check, later, row, -, fails, reports⟩ := (refused _).1 error
    exact ⟨before, check, later, row, fails, reports⟩

open Settings in
/-- Bucket and key file are given, and no variable is the port, the base path or the data key; but
one is named after a path that begins at the port. -/
theorem path_into_port_refused :
    let env : Environment := [("BUCKET", "b"), ("KEYFILE", "k"), ("port.x", "1")]
    (env.map fun x => Environment.lower x.1).Nodup ∧
      (∀ x ∈ env, Environment.lower x.1 ∉ ["port", "base_path", "data_key"]) ∧
      ¬Blank.AllBlank "b" ∧ ¬Blank.AllBlank "k" ∧
      ofEnvironment env = .error (.branching "port" .table) := by
  refine ⟨by decide +kernel, by decide +kernel, fun blank => ?_, fun blank => ?_, by decide +kernel⟩
  · exact absurd (blank 'b' (by simp)) (by decide)
  · exact absurd (blank 'k' (by simp)) (by decide)

end AccountVault
