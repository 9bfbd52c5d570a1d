import MapReplica.Proofs.Resource.Shelving
import MapReplica.Proofs.Update.Lookups
import MapReplica.Proofs.Update.Sharing

/-!
# Entities with their own scripts

A preparation puts the script of every entity on the disk as it was fetched. As long as no
script lies at the place of another one or of a file of a cycle, no call after that changes
it. So every entity is applied with its own script, whatever the calls after the preparation
come to.
-/

namespace MapReplica.Update

open Dialogue Resource

variable {directory : List String} {merges : Bytes → Bytes → Prop} {desk after : Desk}
variable {setup : Setup} {project : String} {entities : List Entity}
variable {targets : List Upload.Target} {limit : Option Nat} {before manager current : Manager}

/-! ## Preparation -/

/-- Every script that a preparation loads lies on the disk as it was fetched. -/
def AllShelved (directory : List String) (setup : Setup) (project : String)
    (entities : List Entity) (desk : Desk) : Prop :=
  ∀ resource ∈ loadedFor project entities, Settled directory setup.workDirectory resource desk

theorem asks_progress_prepare {workDirectory : Path} {bucket : String} {start : Progress} :
    ((Progress.prepare workDirectory bucket project limit).starting start).Asks
      fun question : Inquiry => ∀ id, question ≠ .getObject id := by
  refine ⟨fun _ => nofun, fun made => ?_⟩
  rcases made with fault | ⟨⟩
  · trivial
  · refine ⟨fun _ => nofun, fun found => ?_⟩
    rcases found with failure | ⟨⟨⟩⟩ <;> trivial

/-- Loading that ends well leaves the scripts on the disk as it fetched them. -/
theorem keeps_load_allShelved
    (apart : Apart directory setup.workDirectory (loadedFor project entities))
    (unfetched : ∀ id ∈ Set.univ, Unfetched id desk) :
    ((onResources (Resource.load setup.workDirectory (entities.flatMap
        (resourcesOf project)))).starting before).Keeps (onDisk directory merges)
      (fun _ _ => True) (fun result now => ∀ value, result.1 = .ok value →
        AllShelved directory setup project entities now) desk := by
  have fetches : (fetchAll setup.workDirectory (loadedFor project entities)).run.Keeps
      (onDisk directory merges) (fun _ _ => True) (fun outcome now => ∀ cache, outcome = .ok cache →
        AllShelved directory setup project entities now) desk :=
    keeps_fetchAll pairwise_firstsById apart fun resource _ => unfetched resource.id trivial
  rw [Activity.starting_onResources, Resource.load, Activity.starting_bind,
    Activity.starting_task, Dialogue.bind_assoc, Dialogue.bind_assoc]
  apply fetches.bind
  intro outcome last shelved
  cases outcome with
  | error failure =>
      intro _ impossible
      cases impossible
  | ok cache => exact fun _ _ => shelved cache rfl

/-- A preparation that ends well leaves the scripts on the disk as it fetched them. -/
theorem keeps_allShelved {files : Files}
    (apart : Apart directory setup.workDirectory (loadedFor project entities)) :
    ((prepare setup project entities targets limit).starting before).Keeps
      (onDisk directory merges) (fun _ _ => True)
      (fun result now => ∀ value, result.1 = .ok value →
        AllShelved directory setup project entities now) ⟨[], files⟩ := by
  rw [starting_prepare]
  split
  case h_1 failure _ =>
    intro _ impossible
    cases impossible
  case h_2 dispatcher _ =>
    have begins : ((onProgress (Progress.prepare setup.workDirectory setup.bucket project
        limit)).starting before).Keeps (onDisk directory merges) (fun _ _ => True)
        (fun _ now => ∀ id ∈ Set.univ, Unfetched id now) ⟨[], files⟩ := by
      rw [Activity.starting_onProgress]
      apply keeps_unfetched
      · apply Asks.bind
        · exact asks_progress_prepare.mono fun _ asked id _ => asked id
        · exact fun _ => trivial
      · intro id _ body fetched
        cases fetched
    apply Activity.keeps_bind begins
    · intro _ begun now unfetched
      apply Activity.keeps_bind (keeps_load_allShelved apart unfetched)
      · intro _ loaded last shelved
        have settled := shelved () rfl
        split
        case isTrue =>
          refine ⟨trivial, fun answer final step => ?_⟩
          have still : AllShelved directory setup project entities final :=
            fun resource member script =>
              (settled resource member script).of_step step ⟨nofun, nofun⟩
          rcases answer with failure | ⟨⟩
          · exact fun _ _ => still
          · exact fun _ _ => still
        case isFalse => exact fun _ _ => settled
      · rintro failure after last _ value impossible
        cases impossible
    · rintro failure after now _ value impossible
      cases impossible

/-- Scripts with different keys lie apart from each other and from all files of cycles. -/
structure Placed (directory : List String) (setup : Setup) (project : String)
    (entities : List Entity) : Prop where
  apart : ∀ first ∈ entities, ∀ second ∈ entities,
    first.scriptKey project ≠ second.scriptKey project →
      placeOf directory setup.workDirectory (first.scriptKey project) ≠
        placeOf directory setup.workDirectory (second.scriptKey project)
  clear : ∀ entity ∈ entities, ∀ sequence,
    ∀ path ∈ artifacts setup.workDirectory project entities sequence,
      path.resolveFrom directory ≠
        placeOf directory setup.workDirectory (entity.scriptKey project)

/-- Scripts with plain names of their own are placed well unless they end like files of cycles. -/
theorem placed_of_plain (flat : Flat entities)
    (plain : ∀ entity ∈ entities, Path.IsPlain entity.script ∧
      entity.script.toList.getLast? ≠ some 'z' ∧ entity.script.toList.getLast? ≠ some 't') :
    Placed directory setup project entities := by
  have below : ∀ entity ∈ entities,
      placeOf directory setup.workDirectory (entity.scriptKey project) =
        (setup.workDirectory.join (project ++ "/")).resolveFrom directory ++ [entity.script] :=
    fun entity member => Path.resolveFrom_join_slash (plain entity member).1
  constructor
  · intro first hfirst second hsecond different same
    rw [below first hfirst, below second hsecond] at same
    obtain scripts := List.singleton_inj.mp (List.append_cancel_left same)
    exact different (congrArg (project ++ "/" ++ ·) scripts)
  · intro entity member sequence path among
    rw [below entity member]
    obtain ⟨-, packed, listed⟩ := plain entity member
    exact place_ne_of_getLast? flat among packed listed

theorem Placed.apart_loadedFor (placed : Placed directory setup project entities) :
    Apart directory setup.workDirectory (loadedFor project entities) := by
  intro first hfirst second hsecond script script' different
  rcases mem_resources (mem_of_mem_firstsById hfirst) with
    ⟨entity, member, rfl⟩ | ⟨entity, member, key, own, rfl⟩
  · rcases mem_resources (mem_of_mem_firstsById hsecond) with
      ⟨other, member', rfl⟩ | ⟨other, member', key, own, rfl⟩
    · exact placed.apart entity member other member' different
    · cases script'
  · cases script

variable {ready : Desk} {files : Files} {entity : Entity} {style : Path}

/-- What a prepared manager looks up for an entity is its script, as it was fetched. -/
theorem shelved_of_prepares (placed : Placed directory setup project entities)
    (prepares : Leads (onDisk directory merges)
      ((prepare setup project entities targets limit).starting before) ⟨[], files⟩
      (.done (.ok (), manager)) ready)
    (member : entity ∈ entities)
    (found : manager.resources.scriptPath (entity.scriptKey project) = .ok style) :
    style = scriptPathOf setup.workDirectory (entity.scriptKey project) ∧
      Shelved directory setup.workDirectory (entity.scriptKey project) ready := by
  obtain ⟨exchanges, ends⟩ := exists_ends_of_leads prepares rfl
  obtain ⟨first, loaded, among, -, there, holds⟩ :=
    find?_of_prepares ends (script_mem_resources project member)
  have shelved : AllShelved directory setup project entities ready :=
    (keeps_allShelved placed.apart_loadedFor).leads prepares () rfl
  have script := there.symm.trans (scriptPath_ok_iff.mp found)
  cases script
  cases holds with
  | script id => exact ⟨rfl, shelved _ among rfl⟩

/-! ## Calls -/

/-- No script of a manager was changed. -/
def Unmoved (directory : List String) (setup : Setup) (order : Manager) (ready now : Desk) : Prop :=
  ∀ entity ∈ order.entities,
    now.files (placeOf directory setup.workDirectory
        (entity.scriptKey order.progress.project)) =
      ready.files (placeOf directory setup.workDirectory (entity.scriptKey order.progress.project))

/-- A manager with the order of another, whose scripts were not changed. -/
def Intact (directory : List String) (setup : Setup) (order : Manager) (ready : Desk)
    (current : Manager) (now : Desk) : Prop :=
  SameOrder order current ∧ Unmoved directory setup order ready now

/-- A call that prepares nothing changes no script, at no moment. -/
theorem keeps_unmoved {call : Call}
    (placed : Placed directory setup manager.progress.project manager.entities)
    (unprepared : call.assignment? = none) (same : SameOrder manager current)
    (unmoved : Unmoved directory setup manager ready desk) :
    ((call.work setup).starting current).Keeps (onDisk directory merges)
      (fun now _ => Unmoved directory setup manager ready now)
      (fun _ now => Unmoved directory setup manager ready now) desk := by
  refine (asks_call unprepared same).invariant unmoved fun now question asked unmoved => ?_
  refine ⟨unmoved, fun answer after step entity member => ?_⟩
  refine (step.2.1 _ fun path written => ?_).trans (unmoved entity member)
  obtain ⟨sequence, among⟩ := asked.writes written
  exact placed.clear entity member sequence path among

/-- A history of calls that prepare nothing leaves all scripts as they are. -/
theorem intact_of_history {last : Desk}
    (placed : Placed directory setup manager.progress.project manager.entities)
    (history : History (onDisk directory merges) setup Unpreparing manager ready current last) :
    Intact directory setup manager ready current last := by
  have begins : Intact directory setup manager ready manager ready :=
    ⟨.refl manager, fun _ _ => rfl⟩
  apply history.invariant begins
  rintro call current now outcome unprepared ⟨same, unmoved⟩
  apply ((keeps_unmoved placed unprepared same unmoved).and
    (keeps_same_call unprepared same)).mono
  rintro result now ⟨unmoved, same⟩ _
  exact ⟨same, unmoved⟩

/--
Let scripts with different keys lie apart from each other and from the files of all cycles.
Then after a preparation, whatever calls that prepare nothing were made and whatever they
came to, a diff is applied to an entity only with its own script: the file holds exactly
what the preparation fetched from the key of the script.
-/
theorem applied_with_own_script (placed : Placed directory setup project entities)
    (prepares : Leads (onDisk directory merges)
      ((prepare setup project entities targets limit).starting before) ⟨[], files⟩
      (.done (.ok (), manager)) ready)
    {last : Desk} (history : History (onDisk directory merges) setup Unpreparing manager ready
      current last) {call : Call} (unprepared : call.assignment? = none)
    {arguments : ApplyArguments}
    {next : Except Failure Unit → Dialogue collaborators (Except Failure Unit × Manager)}
    (run : Leads (onDisk directory merges) ((call.work setup).starting current) last
      (.ask (P := collaborators) (.applyDiff arguments) next) desk) :
    ∃ entity ∈ entities, ∃ sequence,
      arguments = argumentsFor setup manager sequence (mergedPath setup.workDirectory sequence)
        entity (scriptPathOf setup.workDirectory (entity.scriptKey project)) ∧
      (∃ body, Fetched ready.past (entity.scriptKey project) body) ∧
      ∀ body, Fetched ready.past (entity.scriptKey project) body →
        desk.files (arguments.style.resolveFrom directory) = some body := by
  obtain ⟨exchanges, ends⟩ := exists_ends_of_leads prepares rfl
  have prepared := (prepared_of_ends ends).1
  obtain rfl := prepared.project
  obtain rfl := prepared.entities
  obtain ⟨same, unmoved⟩ := intact_of_history placed history
  obtain ⟨entity, member, sequence, style, found, rfl⟩ :=
    ((asks_call unprepared same).leads run).1.applies
  obtain ⟨rfl, shelved⟩ := shelved_of_prepares placed prepares member found
  refine ⟨entity, member, sequence, rfl, shelved.fetched, fun body fetched => ?_⟩
  have still := ((keeps_unmoved placed unprepared same unmoved).leads run).1
  exact (still entity member).trans (shelved.stored body fetched)

/-! ## Scripts of a town -/

/-- Collaborators that do all that they are asked. Every object holds its own key. -/
def labelled (files : Files) : (question : Inquiry) → question.Answer × Files
  | .getObject key => ((.ok (Utf8.encode key) : Except Failure Bytes), files)
  | question => obligingDisk [] files question

theorem stores_labelled {question : Inquiry} :
    Stores [] Eq files question (labelled files question).1 (labelled files question).2 := by
  cases question with
  | getObject key => exact ⟨fun _ _ => rfl, trivial⟩
  | _ => exact stores_obligingDisk

/-- Such collaborators with a record of what was said. -/
def labelling (question : Inquiry) (desk : Desk) : question.Answer × Desk :=
  ((labelled desk.files question).1,
    { past := desk.past ++ [Inquiry.answered question (labelled desk.files question).1]
      files := (labelled desk.files question).2 })

theorem leads_labelling {α : Type} (count : Nat) (dialogue : Dialogue collaborators α)
    (desk : Desk) :
    Leads (onDisk [] Eq) dialogue desk (dialogue.advance labelling count desk).1
      (dialogue.advance labelling count desk).2 :=
  leads_advance (fun _ _ => ⟨rfl, stores_labelled⟩) count dialogue desk

/-- The preparation of a town for some entities, with an empty disk. -/
def townScripts (entities : List Entity) :
    Dialogue collaborators (Except Failure Unit × Manager) × Desk :=
  ((prepare townSetup "town" entities [.objectStore] none).starting .fresh).advance
    (P := collaborators) labelling 8 ⟨[], fun _ => none⟩

/-- A cycle of a manager of the town, as far as some questions. -/
def townCycle (manager : Manager) (count : Nat) (desk : Desk) :
    Dialogue collaborators (Except Failure Unit × Manager) × Desk :=
  (((Call.next "feed").work townSetup).starting manager).advance (P := collaborators) labelling
    count desk

/-- With what a dialogue is about to apply a diff. -/
def applying? {α : Type} : Dialogue collaborators α → Option ApplyArguments
  | .ask (Inquiry.applyDiff arguments) _ => some arguments
  | _ => none

theorem ask_of_applying? {α : Type} {dialogue : Dialogue collaborators α}
    {arguments : ApplyArguments} (applying : applying? dialogue = some arguments) :
    ∃ next, dialogue = .ask (P := collaborators) (.applyDiff arguments) next := by
  unfold applying? at applying
  split at applying
  case h_1 arguments next =>
    cases applying
    exact ⟨next, rfl⟩
  case h_2 => cases applying

theorem leads_townCycle {count : Nat} {arguments : ApplyArguments}
    (applying : applying? (townCycle manager count desk).1 = some arguments) :
    ∃ next, Leads (onDisk [] Eq) (((Call.next "feed").work townSetup).starting manager) desk
      (.ask (P := collaborators) (.applyDiff arguments) next) (townCycle manager count desk).2 := by
  obtain ⟨next, asked⟩ := ask_of_applying? applying
  refine ⟨next, ?_⟩
  rw [← asked]
  exact leads_labelling count _ desk

/-- The manager after a cycle that has ended. -/
def afterCycle (cycle : Dialogue collaborators (Except Failure Unit × Manager) × Desk) : Manager :=
  (cycle.1.value?.map Prod.snd).getD .fresh

/-- A cycle that has ended is a history. -/
theorem history_afterCycle
    {cycle : Dialogue collaborators (Except Failure Unit × Manager) × Desk}
    (run : Leads (onDisk [] Eq) (((Call.next "feed").work townSetup).starting manager) desk
      cycle.1 cycle.2) (ended : cycle.1.value?.isSome = true) :
    History (onDisk [] Eq) townSetup Unpreparing manager desk (afterCycle cycle) cycle.2 := by
  obtain ⟨⟨outcome, after⟩, value⟩ := Option.isSome_iff_exists.mp ended
  have same : afterCycle cycle = after := by
    rw [afterCycle, value]
    rfl
  rw [same]
  rw [eq_done_of_value? value] at run
  exact .call .start run rfl

/-- Two entities with a script each. -/
def pairedEntities : List Entity :=
  [roads, paths]

/-- The manager that is prepared for both. -/
def pairedTown : Manager :=
  { townManager with
    entities := pairedEntities
    resources := [("town/roads.lua", .script ⟨"work/town/roads.lua"⟩),
      ("town/paths.lua", .script ⟨"work/town/paths.lua"⟩)] }

/-- Such collaborators, but with the script of the paths no diff is applied. -/
def refusing (question : Inquiry) (desk : Desk) : question.Answer × Desk :=
  match question with
  | .applyDiff arguments =>
      if arguments.style = ⟨"work/town/paths.lua"⟩ then
        let answer : Except Failure Unit := .error (.importTool (some 1) "no tables")
        (answer, { desk with past := desk.past ++ [Inquiry.answered (.applyDiff arguments) answer] })
      else labelling (.applyDiff arguments) desk
  | question => labelling question desk

theorem leads_refusing {α : Type} (count : Nat) (dialogue : Dialogue collaborators α)
    (desk : Desk) :
    Leads (onDisk [] Eq) dialogue desk (dialogue.advance refusing count desk).1
      (dialogue.advance refusing count desk).2 := by
  refine leads_advance (fun question now => ?_) count dialogue desk
  cases question with
  | applyDiff arguments =>
      simp only [refusing]
      split
      case isTrue => exact ⟨rfl, fun _ _ => rfl, trivial⟩
      case isFalse => exact ⟨rfl, stores_labelled⟩
  | _ => exact ⟨rfl, stores_labelled⟩

/-- A first cycle for both. -/
def pairedFailure : Dialogue collaborators (Except Failure Unit × Manager) × Desk :=
  (((Call.next "feed").work townSetup).starting pairedTown).advance (P := collaborators) refusing
    20 (townScripts pairedEntities).2

/-- The next one, as far as it is about to be applied to the paths. -/
def pairedRetry : Dialogue collaborators (Except Failure Unit × Manager) × Desk :=
  townCycle (afterCycle pairedFailure) 5 pairedFailure.2

theorem pairedFailure_failed :
    pairedFailure.1.value?.map (fun result => result.1.toBool) = some false := by
  decide +kernel

theorem pairedRetry_applying :
    applying? pairedRetry.1 = some (argumentsFor townSetup pairedTown 0
      (mergedPath townSetup.workDirectory 0) paths ⟨"work/town/paths.lua"⟩) := by
  decide +kernel

theorem placed_paired : Placed [] townSetup "town" pairedEntities := by
  apply placed_of_plain
  · exact flat_of_check rfl
  · intro entity member
    rcases List.mem_pair.mp member with rfl | rfl
    · exact ⟨⟨by decide, by decide, by decide, by decide⟩, by decide, by decide⟩
    · exact ⟨⟨by decide, by decide, by decide, by decide⟩, by decide, by decide⟩

/--
A cycle of two entities fails at the second one, which is then applied in the next cycle with
its own script.
-/
theorem pairedRetry_own_script :
    pairedFailure.1.value?.map (fun result => result.1.toBool) = some false ∧
    History (onDisk [] Eq) townSetup Unpreparing pairedTown (townScripts pairedEntities).2
      (afterCycle pairedFailure) pairedFailure.2 ∧
    (∃ next, Leads (onDisk [] Eq)
      (((Call.next "feed").work townSetup).starting (afterCycle pairedFailure)) pairedFailure.2
      (.ask (P := collaborators) (.applyDiff (argumentsFor townSetup pairedTown 0
        (mergedPath townSetup.workDirectory 0) paths ⟨"work/town/paths.lua"⟩)) next)
      pairedRetry.2) ∧
    pairedRetry.2.files ["work", "town", "paths.lua"] = some (Utf8.encode "town/paths.lua") := by
  have prepares : Leads (onDisk [] Eq)
      ((prepare townSetup "town" pairedEntities [.objectStore] none).starting .fresh)
      ⟨[], fun _ => none⟩ (.done (.ok (), pairedTown)) (townScripts pairedEntities).2 :=
    leads_labelling 8 _ _
  have cycle : Leads (onDisk [] Eq) (((Call.next "feed").work townSetup).starting pairedTown)
      (townScripts pairedEntities).2 pairedFailure.1 pairedFailure.2 :=
    leads_refusing 20 _ _
  have history := history_afterCycle cycle (by decide +kernel)
  obtain ⟨next, run⟩ := leads_townCycle pairedRetry_applying
  refine ⟨pairedFailure_failed, history, ⟨next, run⟩, ?_⟩
  obtain ⟨entity, member, sequence, own, _, stored⟩ :=
    applied_with_own_script placed_paired prepares history rfl run
  have style : (⟨"work/town/paths.lua"⟩ : Path) =
      scriptPathOf townSetup.workDirectory (entity.scriptKey "town") :=
    congrArg ApplyArguments.style own
  rcases List.mem_pair.mp member with rfl | rfl
  · exact absurd style (by decide)
  · exact stored _ (List.mem_of_getElem? (i := 5) rfl)

/-- Two entities whose scripts have different keys that lead to one place. -/
def overlapping : List Entity :=
  [roads, { roads with id := "water", script := "./roads.lua" }]

/-- The manager that is prepared for both. -/
def overlappingTown : Manager :=
  { townManager with
    entities := overlapping
    resources := [("town/roads.lua", .script ⟨"work/town/roads.lua"⟩),
      ("town/./roads.lua", .script ⟨"work/town/./roads.lua"⟩)] }

/-- An entity whose script lies where its first cycle lists its expired tiles. -/
def squattingRoads : Entity := { roads with script := "roads.0.expire.list" }

/-- The manager that is prepared for this entity. -/
def squattingTown : Manager :=
  { townManager with
    entities := [squattingRoads]
    resources := [("town/roads.0.expire.list",
      .script ⟨"work/town/roads.0.expire.list"⟩)] }

/-- The first cycle of this manager. -/
def squattingCycle : Dialogue collaborators (Except Failure Unit × Manager) × Desk :=
  townCycle squattingTown 20 (townScripts [squattingRoads]).2

/--
Without such care a diff is applied to the roads with the script of the water, or with a
script that the cycle before has removed.
-/
theorem misapplied_without_care :
    (∃ ready next desk,
      Leads (onDisk [] Eq)
        ((prepare townSetup "town" overlapping [.objectStore] none).starting .fresh)
        ⟨[], fun _ => none⟩ (.done (.ok (), overlappingTown)) ready ∧
      Leads (onDisk [] Eq) (((Call.next "feed").work townSetup).starting overlappingTown) ready
        (.ask (P := collaborators) (.applyDiff (argumentsFor townSetup overlappingTown 0
          (mergedPath townSetup.workDirectory 0) roads ⟨"work/town/roads.lua"⟩)) next) desk ∧
      Fetched ready.past "town/roads.lua" (Utf8.encode "town/roads.lua") ∧
      desk.files ["work", "town", "roads.lua"] = some (Utf8.encode "town/./roads.lua")) ∧
    ∃ ready manager middle next desk,
      Leads (onDisk [] Eq)
        ((prepare townSetup "town" [squattingRoads] [.objectStore] none).starting .fresh)
        ⟨[], fun _ => none⟩ (.done (.ok (), squattingTown)) ready ∧
      History (onDisk [] Eq) townSetup Unpreparing squattingTown ready manager middle ∧
      Leads (onDisk [] Eq) (((Call.next "feed").work townSetup).starting manager) middle
        (.ask (P := collaborators) (.applyDiff (argumentsFor townSetup manager 1
          (mergedPath townSetup.workDirectory 1) squattingRoads
          ⟨"work/town/roads.0.expire.list"⟩)) next) desk ∧
      desk.files ["work", "town", "roads.0.expire.list"] = none := by
  constructor
  · have applying : applying? (townCycle overlappingTown 4 (townScripts overlapping).2).1 =
        some (argumentsFor townSetup overlappingTown 0 (mergedPath townSetup.workDirectory 0)
          roads ⟨"work/town/roads.lua"⟩) := by decide +kernel
    obtain ⟨next, run⟩ := leads_townCycle applying
    refine ⟨(townScripts overlapping).2, next, _, leads_labelling 8 _ _, run, ?_, ?_⟩
    · exact List.mem_of_getElem? (i := 2) rfl
    · decide +kernel
  · have cycle : Leads (onDisk [] Eq) (((Call.next "feed").work townSetup).starting squattingTown)
        (townScripts [squattingRoads]).2 squattingCycle.1 squattingCycle.2 :=
      leads_labelling 20 _ _
    have history := history_afterCycle cycle (by decide +kernel)
    have applying : applying? (townCycle (afterCycle squattingCycle) 4 squattingCycle.2).1 =
        some (argumentsFor townSetup (afterCycle squattingCycle) 1
          (mergedPath townSetup.workDirectory 1) squattingRoads
          ⟨"work/town/roads.0.expire.list"⟩) := by decide +kernel
    obtain ⟨next, run⟩ := leads_townCycle applying
    refine ⟨(townScripts [squattingRoads]).2, afterCycle squattingCycle, squattingCycle.2, next, _,
      leads_labelling 8 _ _, history, run, ?_⟩
    decide +kernel

end MapReplica.Update
