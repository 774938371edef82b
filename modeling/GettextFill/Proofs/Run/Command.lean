import GettextFill.Proofs.Path
import GettextFill.Proofs.Run.All
import GettextFill.Proofs.Settings

/-!
# What a command keeps to

All that a command does before it turns to the catalogs looks at files at most: the settings are put
into effect, the table is read. After that no fault ends the run any more. A command therefore comes
to one of three things (`Command.run_cases`): it ends early with nothing changed, it has counted, or
it has filled catalogs with the table that was read.

`Command.run_contract` is what follows for every run, whatever its outcome and whatever operation on
files met with a mishap on the way.
-/

namespace GettextFill

/-! ### Before the catalogs -/

theorem readsOnly_configureFiles (options : Option Document) :
    ReadsOnly (configureFiles options : StateM Surroundings Unit) := by
  rw [configureFiles]
  split
  · exact ReadsOnly.session.bind fun _ => .setSession _
  · exact .pure _

theorem Table.readsOnly_read [Readers] (path : Text) :
    ReadsOnly (Table.read path : StateM Surroundings _) := by
  rw [Table.read]
  refine (readsOnly_pathExists path).bind fun found => ?_
  split
  · exact .pure _
  · refine (readsOnly_readText path).bind fun outcome => ?_
    split <;> exact .pure _

namespace Settings

theorem readsOnly_configureLogging (settings : Settings) :
    ReadsOnly (settings.configureLogging : StateM Surroundings _) := by
  rw [configureLogging]
  split
  · exact .pure _
  · split
    · exact .pure _
    · exact (ReadsOnly.session.bind fun _ => .setSession _).bind fun _ => .pure _

theorem readsOnly_configure (settings : Settings) :
    ReadsOnly (settings.configure : StateM Surroundings _) := by
  have hset {condition : Bool} {name : Text} {k : Unit → StateM Surroundings (Except Failure Unit)}
      (hk : ∀ u, ReadsOnly (k u)) :
      ReadsOnly (if condition then Host.setEnvironment name "true" >>= k else k ()) := by
    cases condition with
    | false => exact hk ()
    | true => exact (ReadsOnly.setEnvironment name _).bind hk
  rw [configure]
  refine (readsOnly_configureFiles _).bind fun _ => (readsOnly_configureLogging _).bind ?_
  intro outcome
  split
  · exact .pure _
  · exact hset fun _ => hset fun _ => .pure _

theorem writes_of_fillOptions? {run : Settings} {here : Text} {o : FillOptions}
    (h : run.fillOptions? here = some o) : o.writes = !o.dryRun := by
  rw [fillOptions?] at h
  split at h
  · obtain ⟨languages, -, rfl⟩ := Option.map_eq_some_iff.mp h
    rfl
  · cases h

end Settings

namespace Command

variable {settings : Settings} {options : Options} {s s' : Surroundings}

theorem readsOnly_sayLine (line : Text) : ReadsOnly (sayLine line : StateM Surroundings Unit) :=
  .say _ _

theorem readsOnly_tellSettings (command : Command) (settings : Settings) :
    ReadsOnly (tellSettings command settings : StateM Surroundings Unit) := by
  rw [tellSettings]
  split
  · exact (ReadsOnly.say _ _).bind fun _ => .say _ _
  · exact .pure _

theorem readsOnly_sayStatus (table : Table) (o : FillOptions) :
    ReadsOnly (sayStatus table o : StateM Surroundings Nat) :=
  (readsOnly_sayLine _).bind fun _ => (readsOnly_inspectAll table o).bind fun _ =>
    (readsOnly_sayLine _).bind fun _ => .pure _

/-! ### Ways of a command -/

/-- A line that is said behind all that was said. -/
def saying (s : Surroundings) (line : Text) : Surroundings :=
  { s with said := s.said ++ [(.log, [.text line])] }

theorem sayFill_cases [Readers] (table : Table) (o : FillOptions) (s : Surroundings) :
    ∃ before, before.tree = s.tree ∧ before.here = s.here ∧
      ((∃ failure after, (fillAll table o : StateM Surroundings _) before = (.error failure, after) ∧
        (sayFill table o : StateM Surroundings _) s = (.error failure, after)) ∨
      ∃ report after, (fillAll table o : StateM Surroundings _) before = (.ok report, after) ∧
        (sayFill table o : StateM Surroundings _) s =
          (.ok (if 0 < report.failed then 1 else 0), saying after report.text)) := by
  have hend {k : Except Failure FillReport → StateM Surroundings (Except Failure Nat)}
      (herror : ∀ failure s, k (.error failure) s = (.error failure, s))
      (hok : ∀ report s,
        k (.ok report) s = (.ok (if 0 < report.failed then 1 else 0), saying s report.text))
      (before : Surroundings) :
      (∃ failure after,
        (fillAll table o : StateM Surroundings _) before = (.error failure, after) ∧
          (fillAll table o >>= k) before = (.error failure, after)) ∨
      ∃ report after, (fillAll table o : StateM Surroundings _) before = (.ok report, after) ∧
        (fillAll table o >>= k) before =
          (.ok (if 0 < report.failed then 1 else 0), saying after report.text) := by
    rw [bind_apply]
    rcases (fillAll table o : StateM Surroundings _) before with ⟨outcome, after⟩
    cases outcome with
    | error failure => exact Or.inl ⟨failure, after, rfl, herror failure after⟩
    | ok report => exact Or.inr ⟨report, after, rfl, hok report after⟩
  let announced : Surroundings := saying s ("Filling catalogs in " ++ o.directory)
  rw [sayFill, bind_apply]
  cases o.dryRun with
  | false =>
      refine ⟨announced, rfl, rfl, ?_⟩
      rw [if_neg Bool.false_ne_true]
      exact hend (fun _ _ => rfl) (fun _ _ => rfl) announced
  | true =>
      refine ⟨saying announced "Dry run: catalogs will not be written", rfl, rfl, ?_⟩
      rw [if_pos rfl, bind_apply]
      exact hend (fun _ _ => rfl) (fun _ _ => rfl) (saying announced _)

/-- With settings in effect, a command ends before it has changed anything, counts what there is to
fill, or fills catalogs with a table that it has read. -/
theorem carryOut_cases [Readers] {run : Settings} (hrun : settings.checkedRun options = .ok run)
    (command : Command) (s : Surroundings) :
    let x := (carryOut command run : StateM Surroundings _) s
    (x.2.tree = s.tree ∧ ((∃ failure, x.1 = .error failure) ∨ command = .status ∧ x.1 = .ok 0)) ∨
      command = .fill ∧ ∃ o table start, run.fillOptions? s.path = some o ∧ o.Checked ∧
        (Table.read (run.tablePath s.path) : StateM Surroundings _) s = (.ok table, start) ∧
        x = (sayFill table o : StateM Surroundings _) start := by
  intro x
  obtain ⟨o, ho, hchecked, -⟩ := Settings.exists_fillOptions hrun s.path
  dsimp only [x]
  rw [carryOut, bind_apply]
  dsimp only [Host.workingDirectory]
  rw [bind_apply, ho]
  obtain ⟨hread, -⟩ := Table.readsOnly_read (run.tablePath s.path) s
  rcases htable : (Table.read (run.tablePath s.path) : StateM Surroundings _) s with
    ⟨outcome, start⟩
  rw [htable] at hread
  cases outcome with
  | error f => exact Or.inl ⟨hread, Or.inl ⟨_, rfl⟩⟩
  | ok table =>
      cases command with
      | status =>
          refine Or.inl ⟨?_, Or.inr ⟨rfl, rfl⟩⟩
          exact (readsOnly_sayStatus table o start).1.trans hread
      | fill => exact Or.inr ⟨rfl, o, table, start, rfl, hchecked, rfl, rfl⟩

/-- Nothing changes before the settings are in effect. -/
theorem run_cases [Readers] (command : Command) (settings : Settings) (options : Options) (s : Surroundings) :
    let x := (command.run settings options : StateM Surroundings _) s
    (∃ failure, x.1 = .error failure ∧ x.2.tree = s.tree) ∨
      ∃ run s', settings.checkedRun options = .ok run ∧ s'.tree = s.tree ∧ s'.here = s.here ∧
        x = (carryOut command run : StateM Surroundings _) s' := by
  intro x
  dsimp only [x]
  rw [run]
  cases hrun : settings.checkedRun options with
  | error f => exact Or.inl ⟨_, rfl, rfl⟩
  | ok run =>
      dsimp only
      rw [bind_apply]
      obtain ⟨htree, hhere⟩ := run.readsOnly_configure s
      rcases hconfigure : (run.configure : StateM Surroundings _) s with ⟨outcome, s₁⟩
      rw [hconfigure] at htree hhere
      cases outcome with
      | error failure => exact Or.inl ⟨failure, rfl, htree⟩
      | ok _ =>
          obtain ⟨htree', hhere'⟩ := readsOnly_tellSettings command run s₁
          exact Or.inr ⟨run, _, rfl, htree'.trans htree, hhere'.trans hhere, rfl⟩

/-! ### What holds of every run -/

/-- A run has failed if one of its results has. -/
theorem code_eq {report : FillReport} (h : report.IsTotal) :
    (if 0 < report.failed then 1 else 0) =
      if ∃ result ∈ report.languages, result.state = .failed then 1 else 0 := by
  rw [h.failed]
  simp [List.countP_pos_iff]

section

variable [Readers]

/-- A run that ended with a code after it had filled catalogs: with the languages of checked
settings and of the table that they name, one result for each, and a report of these at the end. -/
structure Completed (settings : Settings) (options : Options) (s s' : Surroundings) (code : Nat)
    (table : Table) (o : FillOptions) (report : FillReport) : Prop where
  checked : ∃ run, settings.checkedRun options = .ok run ∧ run.fillOptions? s.path = some o ∧
    ∃ s₁, s₁.tree = s.tree ∧ s₁.here = s.here ∧
      ((Table.read (run.tablePath s.path) : StateM Surroundings _) s₁).1 = .ok table
  reported : ∃ before after, before.tree = s.tree ∧ report.Accounts table o before after ∧
    s' = saying after report.text
  code : code = if ∃ result ∈ report.languages, result.state = .failed then 1 else 0

/-- If a run is to write nothing, then every catalog holds what it held, of whatever language it is.
-/
def SparesCatalogs (settings : Settings) (options : Options) (s s' : Surroundings) : Prop :=
  ∀ run o, settings.checkedRun options = .ok run → run.fillOptions? s.path = some o →
    o.dryRun = true → ∀ language, Language.isCode (Text.trim language) = true →
      FileTree.Spares (Path.place s.here (Path.catalog o.directory language o.extension))
        s.tree s'.tree

/-- What a run of a command keeps to. -/
structure Contract (command : Command) (settings : Settings) (options : Options)
    (s s' : Surroundings) (outcome : Except Failure Nat) : Prop where
  /-- A fault ends a run only before a file has changed. -/
  fault : ∀ f, outcome = .error (.fault f) → s'.tree = s.tree
  status : command = .status → s'.tree = s.tree ∧ ∀ code, outcome = .ok code → code = 0
  fill : command = .fill → ∀ code, outcome = .ok code →
    ∃ table o report, Completed settings options s s' code table o report
  dryRun : SparesCatalogs settings options s s'

theorem contract_of_tree_eq {command : Command} {outcome : Except Failure Nat}
    (htree : s'.tree = s.tree) (hstatus : command = .status → ∀ code, outcome = .ok code → code = 0)
    (hfill : command = .fill → ∀ code, outcome ≠ .ok code) :
    Contract command settings options s s' outcome where
  fault _ _ := htree
  status h := ⟨htree, hstatus h⟩
  fill h code hcode := absurd hcode (hfill h code)
  dryRun _ _ _ _ _ _ _ := htree ▸ FileTree.Spares.refl _ _

variable {run : Settings} {o : FillOptions} {table : Table} {start : Surroundings}

/-- A dry run of all languages spares every catalog. -/
theorem sparesCatalogs_fillAll (hrun : settings.checkedRun options = .ok run)
    (ho : run.fillOptions? s.path = some o) (hchecked : o.Checked) (htree : start.tree = s.tree)
    (hhere : start.here = s.here)
    (htree' : s'.tree = ((fillAll table o : StateM Surroundings _) start).2.tree) :
    SparesCatalogs settings options s s' := by
  intro run' o' hrun' ho' hdry language hlanguage
  rw [hrun] at hrun'
  cases hrun'
  rw [ho] at ho'
  cases ho'
  have hwrites : o.writes = false := by
    rw [Settings.writes_of_fillOptions? ho, hdry]
    rfl
  have hlog : start.LogsApart (Path.catalog o.directory language o.extension) := fun _ level =>
    Path.place_file_ne_catalog hlanguage hchecked.extension start.here o.directory
      start.session.log level
  have hspares := (sparing_fillAll hlog hwrites table start (.refl _ start)).tree
  rwa [htree, hhere, ← htree'] at hspares

theorem contract_of_sayFill (hrun : settings.checkedRun options = .ok run)
    (ho : run.fillOptions? s.path = some o) (hchecked : o.Checked)
    (htable : ∃ s₁, s₁.tree = s.tree ∧ s₁.here = s.here ∧
      ((Table.read (run.tablePath s.path) : StateM Surroundings _) s₁).1 = .ok table)
    (htree : start.tree = s.tree) (hhere : start.here = s.here) :
    Contract .fill settings options s ((sayFill table o : StateM Surroundings _) start).2
      ((sayFill table o : StateM Surroundings _) start).1 := by
  obtain ⟨before, hbefore, hbefore', hcases⟩ := sayFill_cases table o start
  have hspares {s' : Surroundings}
      (h : s'.tree = ((fillAll table o : StateM Surroundings _) before).2.tree) :
      SparesCatalogs settings options s s' :=
    sparesCatalogs_fillAll hrun ho hchecked (hbefore.trans htree) (hbefore'.trans hhere) h
  rcases hcases with ⟨failure, after, hfill, hx⟩ | ⟨report, after, hfill, hx⟩
  · -- a run that breaks off while it fills does so without a fault
    have hbroken : failure = checkBrokenOff := (fillAll_eq_error (congrArg Prod.fst hfill)).2.1
    rw [hx, hbroken]
    constructor
    case fault =>
      intro f hf
      cases hf
    case status =>
      intro h
      cases h
    case fill =>
      intro _ code hcode
      cases hcode
    case dryRun => exact hspares (by rw [hfill])
  · have haccounts := fillAll_accounts hfill
    rw [hx]
    constructor
    case fault =>
      intro f hf
      cases hf
    case status =>
      intro h
      cases h
    case fill =>
      intro _ code hcode
      cases hcode
      exact ⟨table, o, report, ⟨run, hrun, ho, htable⟩,
        ⟨before, after, hbefore.trans htree, haccounts, rfl⟩, code_eq haccounts.totals⟩
    case dryRun =>
      apply hspares
      rw [hfill]
      rfl

/-- Every run of a command keeps to the contract. -/
theorem run_contract (command : Command) (settings : Settings) (options : Options)
    (s : Surroundings) :
    Contract command settings options s
      ((command.run settings options : StateM Surroundings _) s).2
      ((command.run settings options : StateM Surroundings _) s).1 := by
  rcases run_cases command settings options s with
    ⟨failure, hfailure, htree⟩ | ⟨run, s₁, hrun, htree, hhere, hx⟩
  · refine contract_of_tree_eq htree ?_ ?_ <;>
    · intro _ code hcode
      rw [hfailure] at hcode
      cases hcode
  · have hpath : s₁.path = s.path := by rw [Surroundings.path, hhere, Surroundings.path]
    rw [hx]
    rcases carryOut_cases hrun command s₁ with
      ⟨hsame, ⟨failure, hfailure⟩ | ⟨rfl, hcode⟩⟩ | ⟨rfl, o, table, start, ho, hchecked, htable, hy⟩
    · refine contract_of_tree_eq (hsame.trans htree) ?_ ?_ <;>
      · intro _ code hcode
        rw [hfailure] at hcode
        cases hcode
    · refine contract_of_tree_eq (hsame.trans htree) ?_ fun h => by cases h
      intro _ code hok
      rw [hcode] at hok
      cases hok
      rfl
    · rw [hpath] at ho htable
      obtain ⟨hread, hread'⟩ := Table.readsOnly_read (run.tablePath s.path) s₁
      rw [htable] at hread hread'
      rw [hy]
      exact contract_of_sayFill hrun ho hchecked
        ⟨s₁, htree, hhere, congrArg Prod.fst htable⟩ (hread.trans htree) (hread'.trans hhere)

end

end Command

end GettextFill
