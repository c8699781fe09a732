import SentryCell.Lib.Encoding
import SentryCell.Lib.Machine
import Mathlib.Logic.Function.Basic
/-!
# Measurement evidence

`measurement_report_path` and `write_measurement_report` of
`supervisor/validation_campaign.py`, for any number of campaigns on one
directory. A campaign looks for a free name and then creates it, and others
may do the same in between: every access to the directory is a step of its
own here. `open` with mode `"x"` creates a file or fails, and nothing else
makes a file or opens one that is there.
-/

namespace SentryCell.Host

/-- The fields of a `datetime` that the file names are made from. -/
structure DateTime where
  year : ℕ
  month : ℕ
  day : ℕ
  hour : ℕ
  minute : ℕ
  second : ℕ
  deriving DecidableEq, Repr

/-- `strftime('%Y-%m-%d_%H%M%S')`. -/
def DateTime.strftime (t : DateTime) : String :=
  Decimal.zeroPadded 4 t.year ++ "-" ++ Decimal.zeroPadded 2 t.month ++ "-" ++
    Decimal.zeroPadded 2 t.day ++ "_" ++ Decimal.zeroPadded 2 t.hour ++
    Decimal.zeroPadded 2 t.minute ++ Decimal.zeroPadded 2 t.second

/-- `range(10000)`. -/
def collisionIndices : ℕ := 10000

/-- `suffix`. -/
def collisionSuffix (collisionIndex : ℕ) : String :=
  if collisionIndex = 0 then "" else "_" ++ Decimal.zeroPadded 2 collisionIndex

/-- `candidate`, in the directory `measurements`. -/
def candidatePath (measurements : String) (timestamp : DateTime) (collisionIndex : ℕ) : String :=
  measurements ++ "/" ++
    ("val_req_027_campaign_" ++ timestamp.strftime ++ collisionSuffix collisionIndex ++ ".txt")

/-- What a campaign calls the two functions with. -/
structure Campaign where
  timestamp : DateTime
  report : String
  deriving DecidableEq, Repr

/-- **Where a campaign is** in the two functions. -/
inductive CampaignPhase where
  /-- `measurement_report_path` is at this `collision_index`. -/
  | selecting (collisionIndex : ℕ)
  /-- It has raised. -/
  | unselected (message : String)
  /-- It has returned this path. -/
  | selected (path : String)
  /-- `write_measurement_report` has found that `path.parent` is a directory. -/
  | present (path : String)
  /-- `path.open` has returned. -/
  | opened (path : String)
  /-- `write_measurement_report` has returned. -/
  | written (path : String)
  /-- It has raised, with or without having created the file. -/
  | unwritten (path : String) (created : Bool) (message : String)
  deriving DecidableEq, Repr

namespace CampaignPhase

/-- The path that was selected. -/
def path? : CampaignPhase → Option String
  | selecting _ => none
  | unselected _ => none
  | selected path => some path
  | present path => some path
  | opened path => some path
  | written path => some path
  | unwritten path _ _ => some path

/-- The path of the file that the campaign has created. -/
def created? : CampaignPhase → Option String
  | opened path => some path
  | written path => some path
  | unwritten path true _ => some path
  | _ => none

end CampaignPhase

/-- How the call of a step ends: it does what it is for; `is_dir` returns
`False`; or it raises `OSError`, with what is in the file then. -/
inductive CallOutcome where
  | returns
  | missing
  | osError (error left : String)
  deriving DecidableEq, Repr

/-- The files of the directory, by path, with what they hold. -/
abbrev Files := String → Option String

/-- **One step of a campaign**, which is one access to the directory. -/
def Campaign.step (measurements : String) (c : Campaign) (files : Files) :
    CampaignPhase → CallOutcome → Option (CampaignPhase × Files)
  | .selecting collisionIndex, .returns =>
    let candidate := candidatePath measurements c.timestamp collisionIndex
    if files candidate = none then some (.selected candidate, files)
    else if collisionIndex + 1 < collisionIndices then
      some (.selecting (collisionIndex + 1), files)
    else
      some (.unselected
        ("unable to select a unique measurement report path in: " ++ measurements), files)
  | .selected path, .returns => some (.present path, files)
  | .selected path, .missing =>
    some (.unwritten path false ("measurement directory is missing: " ++ measurements), files)
  | .present path, .returns =>
    -- `open("x")` tests and creates in one access
    if files path = none then some (.opened path, Function.update files path (some ""))
    else
      some (.unwritten path false
        ("measurement report already exists and was not overwritten: " ++ path), files)
  | .present path, .osError error _ =>
    some (.unwritten path false
      ("unable to create measurement report " ++ path ++ ": " ++ error), files)
  | .opened path, .returns => some (.written path, Function.update files path (some c.report))
  | .opened path, .osError error left =>
    some (.unwritten path true
      ("unable to create measurement report " ++ path ++ ": " ++ error),
      Function.update files path (some left))
  | _, _ => none

/-- The directory, and where the campaigns are. -/
structure Evidence (ι : Type) where
  files : Files
  phase : ι → CampaignPhase

/-- A step of the campaign `campaign`. -/
structure CampaignStep (ι : Type) where
  campaign : ι
  outcome : CallOutcome
  deriving DecidableEq, Repr

variable {ι : Type} [DecidableEq ι]

/-- No campaign has begun. -/
def Evidence.before (files : Files) : Evidence ι := ⟨files, fun _ => .selecting 0⟩

/-- **One step of one campaign**, whichever it is. -/
def Evidence.step (measurements : String) (campaigns : ι → Campaign) (s : Evidence ι)
    (e : CampaignStep ι) : Option (Evidence ι) :=
  ((campaigns e.campaign).step measurements s.files (s.phase e.campaign) e.outcome).map
    fun result => ⟨result.2, Function.update s.phase e.campaign result.1⟩

/-! ## The names -/

/-- **Two candidates of one second are two names**: the index is spelled out
in full. -/
theorem candidatePath_injective (measurements : String) (timestamp : DateTime) :
    Function.Injective (candidatePath measurements timestamp) := by
  intro j k h
  have hsuffix : collisionSuffix j = collisionSuffix k := by
    simpa only [candidatePath, String.append_right_inj, String.append_left_inj] using h
  unfold collisionSuffix at hsuffix
  have hne : ∀ n, "" ≠ "_" ++ Decimal.zeroPadded 2 n := by
    intro n heq
    have hlist := congrArg String.toList heq
    simp at hlist
  split at hsuffix <;> split at hsuffix
  · omega
  · exact absurd hsuffix (hne k)
  · exact absurd hsuffix.symm (hne j)
  · exact Decimal.zeroPadded_injective 2 ((String.append_right_inj "_").mp hsuffix)

/-! ## What a step can do -/

/-- **What a step of a campaign can do**, to itself and to the directory. -/
inductive Campaign.Moves (measurements : String) (c : Campaign) (files : Files) :
    CampaignPhase → CampaignPhase → Files → Prop
  | taken (k : ℕ) : files (candidatePath measurements c.timestamp k) ≠ none →
      k + 1 < collisionIndices → Moves measurements c files (.selecting k) (.selecting (k + 1)) files
  | exhausted (k : ℕ) (message : String) :
      files (candidatePath measurements c.timestamp k) ≠ none → ¬ k + 1 < collisionIndices →
      Moves measurements c files (.selecting k) (.unselected message) files
  | free (k : ℕ) : files (candidatePath measurements c.timestamp k) = none →
      Moves measurements c files (.selecting k)
        (.selected (candidatePath measurements c.timestamp k)) files
  | checks (path : String) : Moves measurements c files (.selected path) (.present path) files
  | misses (path message : String) :
      Moves measurements c files (.selected path) (.unwritten path false message) files
  | creates (path : String) : files path = none →
      Moves measurements c files (.present path) (.opened path)
        (Function.update files path (some ""))
  | refuses (path message : String) :
      Moves measurements c files (.present path) (.unwritten path false message) files
  | writes (path : String) :
      Moves measurements c files (.opened path) (.written path)
        (Function.update files path (some c.report))
  | breaks (path message left : String) :
      Moves measurements c files (.opened path) (.unwritten path true message)
        (Function.update files path (some left))

variable {measurements path content : String} {c : Campaign} {files files' files₀ : Files}
variable {phase phase' : CampaignPhase}

/-- **What one call of a campaign can do**: it looks for a name, opens, writes
or gives up. -/
theorem Campaign.moves_of_step {outcome : CallOutcome}
    (h : c.step measurements files phase outcome = some (phase', files')) :
    c.Moves measurements files phase phase' files' := by
  unfold Campaign.step at h
  split at h
  · dsimp only at h
    split at h
    · rename_i hfree
      obtain ⟨rfl, rfl⟩ := Prod.mk.inj (Option.some.inj h)
      exact .free _ hfree
    · rename_i htaken
      split at h
      · rename_i hmore
        obtain ⟨rfl, rfl⟩ := Prod.mk.inj (Option.some.inj h)
        exact .taken _ htaken hmore
      · rename_i hlast
        obtain ⟨rfl, rfl⟩ := Prod.mk.inj (Option.some.inj h)
        exact .exhausted _ _ htaken hlast
  · obtain ⟨rfl, rfl⟩ := Prod.mk.inj (Option.some.inj h)
    exact .checks _
  · obtain ⟨rfl, rfl⟩ := Prod.mk.inj (Option.some.inj h)
    exact .misses _ _
  · split at h
    · rename_i hfree
      obtain ⟨rfl, rfl⟩ := Prod.mk.inj (Option.some.inj h)
      exact .creates _ hfree
    · obtain ⟨rfl, rfl⟩ := Prod.mk.inj (Option.some.inj h)
      exact .refuses _ _
  · obtain ⟨rfl, rfl⟩ := Prod.mk.inj (Option.some.inj h)
    exact .refuses _ _
  · obtain ⟨rfl, rfl⟩ := Prod.mk.inj (Option.some.inj h)
    exact .writes _
  · obtain ⟨rfl, rfl⟩ := Prod.mk.inj (Option.some.inj h)
    exact .breaks _ _ _
  · cases h

namespace Campaign.Moves

/-- **A file is changed by the campaign that has it open**, and by no other. -/
theorem keeps (h : c.Moves measurements files phase phase' files')
    (hfile : files path = some content) (hopen : phase ≠ .opened path) :
    files' path = some content := by
  cases h with
  | creates path' hfree =>
    have hne : path ≠ path' := by
      rintro rfl
      rw [hfile] at hfree
      cases hfree
    rwa [Function.update_of_ne hne]
  | writes path' =>
    have hne : path ≠ path' := by
      rintro rfl
      exact hopen rfl
    rwa [Function.update_of_ne hne]
  | breaks path' =>
    have hne : path ≠ path' := by
      rintro rfl
      exact hopen rfl
    rwa [Function.update_of_ne hne]
  | _ => exact hfile

/-- No file is ever removed by a campaign, its own or another. -/
theorem remains (h : c.Moves measurements files phase phase' files') (hfile : files path ≠ none) :
    files' path ≠ none := by
  cases h with
  | creates path' =>
    rw [Function.update_apply]
    split
    · exact Option.some_ne_none _
    · exact hfile
  | writes path' =>
    rw [Function.update_apply]
    split
    · exact Option.some_ne_none _
    · exact hfile
  | breaks path' =>
    rw [Function.update_apply]
    split
    · exact Option.some_ne_none _
    · exact hfile
  | _ => exact hfile

/-- A file that is there now was there or is the campaign's own. -/
theorem appears (h : c.Moves measurements files phase phase' files') (hfile : files' path ≠ none) :
    files path ≠ none ∨ phase'.created? = some path := by
  cases h with
  | creates path' =>
    rw [Function.update_apply] at hfile
    split at hfile
    · rename_i heq
      exact Or.inr (congrArg some heq.symm)
    · exact Or.inl hfile
  | writes path' =>
    rw [Function.update_apply] at hfile
    split at hfile
    · rename_i heq
      exact Or.inr (congrArg some heq.symm)
    · exact Or.inl hfile
  | breaks path' =>
    rw [Function.update_apply] at hfile
    split at hfile
    · rename_i heq
      exact Or.inr (congrArg some heq.symm)
    · exact Or.inl hfile
  | _ => exact Or.inl hfile

/-- What a campaign has created it had created before, or creates where
nothing was. -/
theorem creates_fresh (h : c.Moves measurements files phase phase' files')
    (hcreated : phase'.created? = some path) :
    phase.created? = some path ∨ (files path = none ∧ files' path ≠ none) := by
  cases h with
  | creates path' hfree =>
    obtain rfl : path' = path := Option.some.inj hcreated
    right
    refine ⟨hfree, ?_⟩
    rw [Function.update_self]
    exact Option.some_ne_none _
  | writes path' => exact Or.inl hcreated
  | breaks path' => exact Or.inl hcreated
  | _ => cases hcreated

/-- What a campaign has created stays what it has created. -/
theorem stays_created (h : c.Moves measurements files phase phase' files')
    (hcreated : phase.created? = some path) : phase'.created? = some path := by
  cases h with
  | writes path' => exact hcreated
  | breaks path' => exact hcreated
  | _ => cases hcreated

/-- The path that was selected is the one that is used. -/
theorem stays_selected (h : c.Moves measurements files phase phase' files')
    (hpath : phase.path? = some path) : phase'.path? = some path := by
  cases h with
  | taken => cases hpath
  | exhausted => cases hpath
  | free => cases hpath
  | _ => exact hpath

/-- A campaign that has written its report finds it in its file. -/
theorem to_written (h : c.Moves measurements files phase (.written path) files') :
    files' path = some c.report := by
  cases h with
  | writes => exact Function.update_self _ _ _

/-- It goes on to the next index only from a name that is taken. -/
theorem to_selecting {k : ℕ} (h : c.Moves measurements files phase (.selecting k) files') :
    ∃ j, phase = .selecting j ∧ k = j + 1 ∧ k < collisionIndices ∧
      files' (candidatePath measurements c.timestamp j) ≠ none := by
  cases h with
  | taken j htaken hmore => exact ⟨j, rfl, rfl, hmore, htaken⟩

/-- It selects a name only if there is no file of it. -/
theorem to_selected (h : c.Moves measurements files phase (.selected path) files') :
    ∃ k, phase = .selecting k ∧ path = candidatePath measurements c.timestamp k ∧
      files path = none := by
  cases h with
  | free k hfree => exact ⟨k, rfl, rfl, hfree⟩

/-- It gives up only where the last index is taken too. -/
theorem to_unselected {message : String}
    (h : c.Moves measurements files phase (.unselected message) files') :
    ∃ k, phase = .selecting k ∧ ¬ k + 1 < collisionIndices ∧
      files (candidatePath measurements c.timestamp k) ≠ none := by
  cases h with
  | exhausted k _ htaken hlast => exact ⟨k, rfl, hlast, htaken⟩

/-- A campaign opens a file only where there was none under that name. -/
theorem to_opened (h : c.Moves measurements files phase (.opened path) files') :
    files path = none := by
  cases h with
  | creates _ hfree => exact hfree

end Campaign.Moves

/-! ## Every order of the steps -/

namespace Evidence

variable {campaigns : ι → Campaign} {s s' : Evidence ι} {e : CampaignStep ι}

/-- A step of the evidence is a move of one campaign, and leaves the others
where they are. -/
theorem step_moves (h : s.step measurements campaigns e = some s') :
    ∃ phase', (campaigns e.campaign).Moves measurements s.files (s.phase e.campaign) phase'
        s'.files ∧ s'.phase = Function.update s.phase e.campaign phase' := by
  obtain ⟨⟨phase', files'⟩, hstep, rfl⟩ := Option.map_eq_some_iff.mp h
  exact ⟨phase', Campaign.moves_of_step hstep, rfl⟩

/-- **What holds in every order of the steps**, of a directory that was
`files₀` before. -/
structure Accounted (measurements : String) (campaigns : ι → Campaign) (files₀ : Files)
    (s : Evidence ι) : Prop where
  /-- What was there is there. -/
  kept : ∀ path content, files₀ path = some content → s.files path = some content
  /-- What a campaign has created was not. -/
  fresh : ∀ i path, (s.phase i).created? = some path → files₀ path = none ∧ s.files path ≠ none
  /-- No two campaigns have created one file. -/
  owner : ∀ i j path, (s.phase i).created? = some path → (s.phase j).created? = some path → i = j
  /-- All that has come was created by a campaign. -/
  accounted : ∀ path, s.files path ≠ none →
    files₀ path ≠ none ∨ ∃ i, (s.phase i).created? = some path
  complete : ∀ i path, s.phase i = .written path → s.files path = some (campaigns i).report
  /-- The names before the one that is looked at are taken. -/
  searched : ∀ i k, s.phase i = .selecting k → k < collisionIndices ∧
    ∀ j < k, s.files (candidatePath measurements (campaigns i).timestamp j) ≠ none

omit [DecidableEq ι] in
/-- Before any campaign every file is one that was there from the start. -/
theorem accounted_before (files₀ : Files) :
    (before files₀ : Evidence ι).Accounted measurements campaigns files₀ where
  kept := fun _ _ hfile => hfile
  fresh := fun _ _ hcreated => nomatch hcreated
  owner := fun _ _ _ hcreated => nomatch hcreated
  accounted := fun _ hfile => Or.inl hfile
  complete := fun _ _ hphase => nomatch hphase
  searched := by
    intro i k hphase
    obtain rfl : 0 = k := CampaignPhase.selecting.inj hphase
    exact ⟨by decide, fun j hj => absurd hj (Nat.not_lt_zero j)⟩

/-- **Every step keeps account**: of what was there before, and of what each
campaign has created. -/
theorem Accounted.step (hs : s.Accounted measurements campaigns files₀)
    (h : s.step measurements campaigns e = some s') :
    s'.Accounted measurements campaigns files₀ := by
  obtain ⟨phase', hmove, hphase⟩ := step_moves h
  have hself : s'.phase e.campaign = phase' := by rw [hphase, Function.update_self]
  have hother : ∀ i, i ≠ e.campaign → s'.phase i = s.phase i := by
    intro i hi
    rw [hphase, Function.update_of_ne hi]
  -- what a campaign has created in `s'`, seen from `s`
  have hcreated : ∀ i path, (s'.phase i).created? = some path →
      (s.phase i).created? = some path ∨
        (i = e.campaign ∧ s.files path = none ∧ s'.files path ≠ none) := by
    intro i path hi
    by_cases hie : i = e.campaign
    · subst hie
      rw [hself] at hi
      exact (hmove.creates_fresh hi).imp_right fun hnew => ⟨rfl, hnew⟩
    · rw [hother i hie] at hi
      exact Or.inl hi
  refine ⟨?_, ?_, ?_, ?_, ?_, ?_⟩
  · intro path content hfile
    refine hmove.keeps (hs.kept path content hfile) fun hopen => ?_
    have hnone := (hs.fresh e.campaign path (by rw [hopen]; rfl)).1
    rw [hfile] at hnone
    cases hnone
  · intro i path hi
    rcases hcreated i path hi with hold | ⟨-, hnone, hsome⟩
    · obtain ⟨hbefore, hfile⟩ := hs.fresh i path hold
      exact ⟨hbefore, hmove.remains hfile⟩
    · refine ⟨?_, hsome⟩
      cases hbefore : files₀ path with
      | none => rfl
      | some content =>
        rw [hs.kept path content hbefore] at hnone
        cases hnone
  · intro i j path hi hj
    rcases hcreated i path hi with hi | ⟨hie, hnone, -⟩ <;>
      rcases hcreated j path hj with hj | ⟨hje, hnone', -⟩
    · exact hs.owner i j path hi hj
    · exact absurd hnone' (hs.fresh i path hi).2
    · exact absurd hnone (hs.fresh j path hj).2
    · rw [hie, hje]
  · intro path hfile
    rcases hmove.appears hfile with hold | hnew
    · refine (hs.accounted path hold).imp_right fun ⟨i, hi⟩ => ⟨i, ?_⟩
      by_cases hie : i = e.campaign
      · subst hie
        rw [hself]
        exact hmove.stays_created hi
      · rw [hother i hie]
        exact hi
    · exact Or.inr ⟨e.campaign, by rw [hself]; exact hnew⟩
  · intro i path hi
    by_cases hie : i = e.campaign
    · subst hie
      rw [hself] at hi
      subst hi
      exact hmove.to_written
    · rw [hother i hie] at hi
      refine hmove.keeps (hs.complete i path hi) fun hopen => hie ?_
      exact hs.owner i e.campaign path (by rw [hi]; rfl) (by rw [hopen]; rfl)
  · intro i k hi
    by_cases hie : i = e.campaign
    · subst hie
      rw [hself] at hi
      subst hi
      obtain ⟨j, hold, rfl, hmore, htaken⟩ := hmove.to_selecting
      refine ⟨hmore, fun l hl => ?_⟩
      rcases Nat.lt_succ_iff_lt_or_eq.mp hl with hlt | rfl
      · exact hmove.remains ((hs.searched e.campaign j hold).2 l hlt)
      · exact htaken
    · rw [hother i hie] at hi
      obtain ⟨hk, htaken⟩ := hs.searched i k hi
      exact ⟨hk, fun j hj => hmove.remains (htaken j hj)⟩

/-- **A file that no campaign has open is left alone** by every campaign
from then on. -/
theorem run_keeps {steps : List (CampaignStep ι)} (hfile : s.files path = some content)
    (hopen : ∀ i, s.phase i ≠ .opened path)
    (h : Runs.run (step measurements campaigns) s steps = some s') :
    s'.files path = some content := by
  have hkept : s'.files path = some content ∧ ∀ i, s'.phase i ≠ .opened path := by
    refine Runs.kept (I := fun s => s.files path = some content ∧ ∀ i, s.phase i ≠ .opened path)
      (fun s e s' hs hstep => ?_) ⟨hfile, hopen⟩ h
    obtain ⟨phase', hmove, hphase⟩ := step_moves hstep
    refine ⟨hmove.keeps hs.1 (hs.2 _), fun i => ?_⟩
    rw [hphase, Function.update_apply]
    split
    · rintro rfl
      have hfree := hmove.to_opened
      rw [hs.1] at hfree
      cases hfree
    · exact hs.2 i
  exact hkept.1

/-- **Two campaigns of one second that select at the same time**: the one
that opens the file first writes it, and the other one is refused. -/
theorem run_collision (measurements : String) (campaigns : ι → Campaign) (files : Files) {i j : ι}
    (hij : j ≠ i) (htime : (campaigns j).timestamp = (campaigns i).timestamp)
    (hfree : files (candidatePath measurements (campaigns i).timestamp 0) = none) :
    ∃ s, Runs.run (step measurements campaigns) (before files)
        [⟨i, .returns⟩, ⟨j, .returns⟩, ⟨j, .returns⟩, ⟨i, .returns⟩, ⟨i, .returns⟩, ⟨i, .returns⟩,
          ⟨j, .returns⟩] = some s ∧
      s.phase i = .written (candidatePath measurements (campaigns i).timestamp 0) ∧
      s.phase j = .unwritten (candidatePath measurements (campaigns i).timestamp 0) false
        ("measurement report already exists and was not overwritten: " ++
          candidatePath measurements (campaigns i).timestamp 0) := by
  generalize hpath : candidatePath measurements (campaigns i).timestamp 0 = path at hfree ⊢
  have hpath' : candidatePath measurements (campaigns j).timestamp 0 = path := by
    rw [htime, hpath]
  simp [Runs.run, step, before, Campaign.step, hpath, hpath', hfree, hij, hij.symm]

end Evidence

/-- **Measurement evidence is append-only.** Whatever is in the directory,
for every list of campaigns and every order of their steps: a file that was
there before is there with what it held, and so is at any later time a file
that no campaign has open; a write that has returned has created the file,
which holds the report and is no other campaign's; all that is there was
there or was created by a campaign, of which each creates one file at most.
A path is selected when it is free and all candidates before it are taken,
and is the one that is used; the selection fails when all ten thousand
candidates are taken, which are as many names. -/
theorem evidence_append_only (measurements : String) (campaigns : List Campaign) (files : Files)
    (steps : List (CampaignStep (Fin campaigns.length))) (s : Evidence (Fin campaigns.length))
    (hrun : Runs.run (Evidence.step measurements campaigns.get) (Evidence.before files) steps =
      some s) :
    (∀ path content, files path = some content → s.files path = some content) ∧
    (∀ path content more s', s.files path = some content → (∀ i, s.phase i ≠ .opened path) →
      Runs.run (Evidence.step measurements campaigns.get) s more = some s' →
      s'.files path = some content) ∧
    (∀ i path, s.phase i = .written path →
      files path = none ∧ s.files path = some (campaigns.get i).report ∧
        ∀ j, (s.phase j).created? = some path → j = i) ∧
    (∀ path, s.files path ≠ none → files path ≠ none ∨ ∃ i, (s.phase i).created? = some path) ∧
    (∀ e s', s.step measurements campaigns.get e = some s' →
      (∀ path, s'.phase e.campaign = .selected path →
        ∃ k < collisionIndices,
          path = candidatePath measurements (campaigns.get e.campaign).timestamp k ∧
          s.files path = none ∧
          ∀ j < k, s.files (candidatePath measurements (campaigns.get e.campaign).timestamp j) ≠
            none) ∧
      (∀ path, (s.phase e.campaign).path? = some path →
        (s'.phase e.campaign).path? = some path) ∧
      ∀ message, s'.phase e.campaign = .unselected message → ∀ k < collisionIndices,
        s.files (candidatePath measurements (campaigns.get e.campaign).timestamp k) ≠ none) ∧
    ∀ timestamp, Function.Injective (candidatePath measurements timestamp) := by
  have hs : s.Accounted measurements campaigns.get files :=
    Runs.kept (fun _ _ _ hs hstep => Evidence.Accounted.step hs hstep)
      (Evidence.accounted_before files) hrun
  refine ⟨hs.kept, fun _ _ _ _ hfile hopen => Evidence.run_keeps hfile hopen, ?_, hs.accounted, ?_,
    candidatePath_injective measurements⟩
  · intro i path hwritten
    have hcreated : (s.phase i).created? = some path := by
      rw [hwritten]
      rfl
    exact ⟨(hs.fresh i path hcreated).1, hs.complete i path hwritten, fun j hj =>
      hs.owner j i path hj hcreated⟩
  · intro e s' hstep
    obtain ⟨phase', hmove, hphase⟩ := Evidence.step_moves hstep
    rw [hphase, Function.update_self]
    refine ⟨?_, fun path => hmove.stays_selected, ?_⟩
    · rintro path rfl
      obtain ⟨k, hold, hpath, hfree⟩ := hmove.to_selected
      obtain ⟨hk, htaken⟩ := hs.searched e.campaign k hold
      exact ⟨k, hk, hpath, hfree, htaken⟩
    · rintro message rfl k hk
      obtain ⟨last, hold, hlast, htaken⟩ := hmove.to_unselected
      obtain ⟨-, hbefore⟩ := hs.searched e.campaign last hold
      rcases Nat.lt_or_ge k last with hlt | hge
      · exact hbefore k hlt
      · obtain rfl : k = last := by omega
        exact htaken

/-- Two campaigns of one second. The first one writes its report between the
selection of the other and its `open`. -/
theorem evidence_append_only_collision :
    ∃ s : Evidence (Fin 2),
      s.files (candidatePath "measurements" ⟨2026, 8, 28, 22, 15, 30⟩ 0) = some "first" ∧
      s.phase 1 = .unwritten (candidatePath "measurements" ⟨2026, 8, 28, 22, 15, 30⟩ 0) false
        ("measurement report already exists and was not overwritten: " ++
          candidatePath "measurements" ⟨2026, 8, 28, 22, 15, 30⟩ 0) := by
  obtain ⟨s, hrun, hwritten, hrefused⟩ := Evidence.run_collision "measurements"
    [⟨⟨2026, 8, 28, 22, 15, 30⟩, "first"⟩, ⟨⟨2026, 8, 28, 22, 15, 30⟩, "second"⟩].get
    (fun _ => none) (i := 0) (j := 1) (by decide) rfl rfl
  have hevidence := evidence_append_only "measurements"
    [⟨⟨2026, 8, 28, 22, 15, 30⟩, "first"⟩, ⟨⟨2026, 8, 28, 22, 15, 30⟩, "second"⟩]
    (fun _ => none) _ s hrun
  exact ⟨s, (hevidence.2.2.1 0 _ hwritten).2.1, hrefused⟩

end SentryCell.Host
