import MapReplica.Create
import MapReplica.Proofs.Path.Parents
import MapReplica.Proofs.Update.Unprepared

/-!
# Work within the work directory

The id of a project, the scripts of its entities and the script of a first import become
parts of paths. Of these only the scripts of entities are checked. So what a preparation,
a cycle and a first import write lies in the work directory, wherever that is, exactly if
the id of the project and the key of the script lead nowhere above their start.
-/

namespace MapReplica.Update

open Dialogue

variable {work path : Path} {setup : Setup} {project script : String} {entities : List Entity}
variable {manager : Manager} {inquiry : Inquiry}

/--
Whatever an inquiry writes or removes lies in the work directory, and directories are made
only there and on the way to it.
-/
def Confined (work : Path) : Inquiry → Prop
  | .createDirectory path => work.Along path
  | inquiry => ∀ path ∈ inquiry.writes, work.Within path

/-! ## Keys of scripts -/

theorem isLevel_of_nested (nested : Entity.isNestedKey script = true) :
    Path.IsLevel (Path.segmentsOf script.toList) := by
  intro component member
  have among : component ∈ Path.componentsOf script.toList := List.mem_append_right _ member
  have fits := List.all_eq_true.mp nested component among
  constructor
  · rintro rfl
    cases fits
  · rintro rfl
    cases fits

/-- The script of an entity that was checked stays below every base exactly if its project does. -/
theorem descends_scriptKey_iff {entity : Entity} (checked : Entity.check entities = .ok ())
    (member : entity ∈ entities) :
    Path.Descends (entity.scriptKey project) ↔ project ≠ "" ∧ Path.Descends project := by
  have sound := (Entity.check_eq_ok_iff.mp checked).sound entity member
  have nested : Entity.isNestedKey entity.script = true := Entity.isNestedKey_iff.mpr sound.nested
  exact Path.descends_slash_iff (isLevel_of_nested nested)

/-! ## Files that are placed -/

theorem confined_writeFile {content : Bytes} (within : work.Within path) :
    Confined work (.writeFile path content) := by
  intro written member
  obtain rfl := List.mem_singleton.mp member
  exact within

theorem asks_confined_place {content : Bytes} (within : work.Within path) :
    (Resource.place path content).run.Asks (Confined work) := by
  apply Resource.asks_place
  · intro outer found
    exact Path.along_of_parent? within found
  · exact confined_writeFile within

/-- A file that can be placed is written, so it lies in the work directory if that is asked. -/
theorem within_of_asks_place {content : Bytes}
    (asks : (Resource.place path content).run.Asks (Confined work)) : work.Within path := by
  obtain ⟨exchanges, makes⟩ := exists_ends_makeParent path
  have writes := Task.asks_rest asks makes
  exact writes.1 path (List.mem_singleton_self path)

/-! ## Preparations -/

/-- A preparation stays in the work directory if the scripts of its entities do. -/
theorem asks_confined_prepare {targets : List Upload.Target} {limit : Option Nat}
    {before : Manager} (descends : Path.Descends project)
    (scripts : ∀ entity ∈ entities, Path.Descends (entity.scriptKey project)) :
    ((prepare setup project entities targets limit).starting before).Asks
      (Confined setup.workDirectory) := by
  apply asks_prepare_of
  · exact (Path.within_join setup.workDirectory descends).along
  · exact nofun
  · intro cache
    apply Resource.asks_load_of
    intro resource member
    refine Resource.asks_fetch_of nofun fun kind content => ?_
    apply asks_confined_place
    apply Path.within_join
    obtain ⟨entity, among, needed⟩ := List.mem_flatMap.mp member
    rcases List.mem_cons.mp needed with rfl | area
    · exact scripts entity among
    · obtain ⟨key, -, rfl⟩ := List.mem_map.mp area
      cases kind
  · exact nofun

/-- A script that can be fetched is placed. -/
theorem within_of_asks_fetch {key : String}
    (asks : (Resource.fetch work ⟨key, .script⟩).run.Asks (Confined work)) :
    work.Within (Resource.scriptPathOf work key) := by
  have empty : Resource.textOf key [] = .ok "" := rfl
  have gets : Ends (Resource.fetchText key).run
      [Inquiry.answered (.getObject key) (Except.ok [])] (.ok "") := by
    refine .ask ?_
    show Ends (Task.ofExcept (Resource.textOf key [])).run [] (.ok "")
    rw [empty]
    exact .done _
  have places := Task.asks_rest asks gets
  exact within_of_asks_place (Task.asks_first places)

/-- The first of some resources is fetched by every loading. -/
theorem asks_fetch_of_asks_load {permitted : Inquiry → Prop} {resource : Resource}
    {rest : List Resource} {cache : Resource.Cache}
    (asks : ((Resource.load work (resource :: rest)).starting cache).Asks permitted) :
    (Resource.fetch work resource).run.Asks permitted := by
  have first : Resource.firstsById [] (resource :: rest) =
      resource :: Resource.firstsById [resource.id] rest := rfl
  unfold Resource.load at asks
  rw [first] at asks
  have fetches := Activity.asks_first asks
  rw [Activity.starting_task] at fetches
  exact Task.asks_first (asks_bind_iff.mp fetches).1

/-- A preparation can come so far that it writes the script of the first entity. -/
theorem within_of_asks_prepare {entity : Entity} {rest : List Entity}
    (checked : Entity.check (entity :: rest) = .ok ())
    (asks : ((prepare setup project (entity :: rest) [] none).starting .fresh).Asks
      (Confined setup.workDirectory)) :
    setup.workDirectory.Within (setup.workDirectory.join (entity.scriptKey project)) := by
  have passed : checkAll setup (entity :: rest) [] none = .ok ⟨false, none⟩ := by
    simp only [checkAll, checkOrder, checked]
    rfl
  -- The checks pass, the directory is made and the bucket is found.
  have begins : Ends ((onProgress (Progress.prepare setup.workDirectory setup.bucket project
      none)).starting .fresh)
      [Inquiry.answered (.createDirectory (Progress.directoryOf setup.workDirectory project))
        (Except.ok ()), Inquiry.answered .bucketExists (Except.ok true)]
      (.ok (), { progress := Progress.begun {} project none }) :=
    .ask (.ask (.done _))
  rw [starting_prepare, passed] at asks
  unfold prepareChecked at asks
  dsimp only at asks
  have goesOn := Activity.asks_rest asks begins
  have loads := Activity.asks_first goesOn
  rw [Activity.starting_onResources] at loads
  exact within_of_asks_fetch (asks_fetch_of_asks_load (asks_bind_iff.mp loads).1)

/-! ## Calls that prepare nothing -/

/-- The files of a cycle lie in the work directory if the directory of the project does. -/
theorem within_of_mem_artifacts {sequence : Nat} (descends : Path.Descends project)
    (flat : Flat entities) (member : path ∈ artifacts work project entities sequence) :
    work.Within path := by
  rcases List.mem_cons.mp member with rfl | member
  · exact Path.within_join_plain work isPlain_diffName
  rcases List.mem_cons.mp member with rfl | member
  · exact Path.within_join_plain work isPlain_mergedName
  obtain ⟨entity, among, rfl⟩ := List.mem_map.mp member
  have directory : work.Within (Progress.directoryOf work project) := Path.within_join work descends
  exact directory.trans (Path.within_join_plain _ (isPlain_listNameOf (flat entity among)))

theorem OfCalls.confined (asked : OfCalls setup manager inquiry)
    (descends : Path.Descends manager.progress.project) (flat : Flat manager.entities) :
    Confined setup.workDirectory inquiry := by
  have written : ∀ path ∈ inquiry.writes, setup.workDirectory.Within path := by
    intro path member
    obtain ⟨sequence, among⟩ := asked.writes member
    exact within_of_mem_artifacts descends flat among
  cases inquiry with
  | createDirectory path =>
      -- Only the directory of the diff is made.
      cases asked with
      | idle idle => cases idle
      | append asked =>
          cases asked with
          | cycle asked =>
              cases asked with
              | directory path outer =>
                  refine Path.along_of_parent? ?_ outer
                  exact within_of_mem_artifacts descends flat diffPath_mem_artifacts
  | _ => exact written

/-! ## First imports -/

theorem asks_confined_fetchScript {setup : Create.Setup} {key : String}
    (descends : Path.Descends key) :
    (Create.fetchScript setup key).run.Asks (Confined setup.workDirectory) := by
  refine Task.asks_bind ⟨nofun, fun _ => trivial⟩ fun found => ?_
  cases found with
  | false => trivial
  | true =>
      refine Task.asks_bind ⟨nofun, fun _ => trivial⟩ fun body => ?_
      refine Task.asks_bind (asks_confined_place ?_) fun _ => trivial
      exact Path.within_join setup.workDirectory descends

theorem within_of_asks_fetchScript {setup : Create.Setup} {key : String}
    (asks : (Create.fetchScript setup key).run.Asks (Confined setup.workDirectory)) :
    setup.workDirectory.Within (setup.workDirectory.join key) := by
  have looks : Ends Task.bucketExists.run [Inquiry.answered .bucketExists (Except.ok true)]
      (.ok true) := .ask (.done _)
  have gets : Ends (Task.getObject key).run [Inquiry.answered (.getObject key) (Except.ok [])]
      (.ok []) := .ask (.done _)
  unfold Create.fetchScript at asks
  have goesOn := Task.asks_rest asks looks
  have places := Task.asks_rest goesOn gets
  exact within_of_asks_place (Task.asks_first places)

theorem isPlain_dumpName : Path.IsPlain Create.dumpName := by
  constructor <;> decide

theorem asks_confined_downloadDump {setup : Create.Setup} {url : String} :
    (Create.downloadDump setup url).run.Asks (Confined setup.workDirectory) := by
  have within : setup.workDirectory.Within (Create.dumpPath setup.workDirectory) :=
    Path.within_join_plain setup.workDirectory isPlain_dumpName
  refine Task.asks_bind ?_ fun _ => trivial
  apply asks_download
  · exact nofun
  · intro outer found
    exact Path.along_of_parent? within found
  · intro content
    exact confined_writeFile within

theorem asks_newest {permitted : Inquiry → Prop} {server : String} {headers : List Http.Header}
    (fetch : permitted (.fetch (Dump.newestUrl server) headers)) :
    (Dump.newest server headers).run.Asks permitted := by
  refine Task.asks_bind (asks_get fetch) fun response => ?_
  refine Task.asks_bind ?_ fun body => ?_
  · unfold Feed.bodyOf
    split
    case isTrue => trivial
    case isFalse => trivial
  · split
    case h_1 => trivial
    case h_2 => trivial
    case h_3 => trivial

theorem asks_confined_fetchDump {setup : Create.Setup} {source : Dump.Source} :
    (Create.fetchDump setup source).run.Asks (Confined setup.workDirectory) := by
  unfold Create.fetchDump
  split
  case h_1 => trivial
  case h_2 => exact asks_confined_downloadDump
  case h_3 =>
    refine Task.asks_bind (asks_newest nofun) fun entry => ?_
    exact asks_confined_downloadDump

theorem asks_confined_importWith {script dump : Path} :
    (Create.importWith script dump).run.Asks (Confined work) := by
  refine Task.asks_bind ⟨nofun, fun _ => trivial⟩ fun outcome => ?_
  cases outcome with
  | ok _ => trivial
  | error failure => exact Task.asks_bind ⟨nofun, fun _ => trivial⟩ fun _ => trivial

/-- A first import stays in the work directory exactly if the key of its script descends. -/
theorem confined_create_iff :
    (∀ setup source, (Create.create setup project script source).run.Asks
        (Confined setup.workDirectory)) ↔
      Path.Descends (Create.keyOf project script) := by
  constructor
  · intro confined
    rw [Path.descends_iff_within]
    intro base
    have fetches := Task.asks_first (confined ⟨base, "", []⟩ ⟨.localFile, ""⟩)
    have inside := within_of_asks_fetchScript fetches
    exact inside
  · intro descends setup source
    refine Task.asks_bind (asks_confined_fetchScript descends) fun style => ?_
    exact Task.asks_bind asks_confined_fetchDump fun dump => asks_confined_importWith

/-! ## Work that stays in the work directory -/

/-- The work on a project never leaves the work directory, wherever that is. -/
structure StaysInside (project : String) (entities : List Entity) : Prop where
  directory (work : Path) : work.Within (Progress.directoryOf work project)
  prepare (setup : Setup) (targets : List Upload.Target) (limit : Option Nat) (before : Manager) :
    ((prepare setup project entities targets limit).starting before).Asks
      (Confined setup.workDirectory)
  calls (setup : Setup) (manager : Manager) (call : Call) (unprepared : call.assignment? = none)
    (own : manager.progress.project = project) (ours : manager.entities = entities) :
    ((call.work setup).starting manager).Asks (Confined setup.workDirectory)

theorem staysInside_of_descends (checked : Entity.check entities = .ok ()) (named : project ≠ "")
    (descends : Path.Descends project) : StaysInside project entities where
  directory work := Path.within_join work descends
  prepare setup targets limit before :=
    asks_confined_prepare descends fun _ member =>
      (descends_scriptKey_iff checked member).mpr ⟨named, descends⟩
  calls setup manager call unprepared own ours := by
    subst own ours
    apply (asks_call unprepared (.refl manager)).mono
    intro inquiry asked
    exact asked.confined descends (flat_of_check checked)

theorem descends_of_staysInside (checked : Entity.check entities = .ok ())
    (inside : StaysInside project entities) : project ≠ "" ∧ Path.Descends project := by
  cases entities with
  | nil => cases checked
  | cons entity rest =>
      rw [← descends_scriptKey_iff checked List.mem_cons_self, Path.descends_iff_within]
      intro base
      have asks := inside.prepare ⟨base, "", false, false, none⟩ [] none .fresh
      have inside := within_of_asks_prepare checked asks
      exact inside

/--
The work on a project with entities that were checked stays in the work directory exactly if
the id of the project is not empty and leads nowhere above its start, and its first import
exactly if the key of the script does not.
-/
theorem confined_iff_descends (checked : Entity.check entities = .ok ()) :
    (StaysInside project entities ↔ project ≠ "" ∧ Path.Descends project) ∧
      ((∀ setup source, (Create.create setup project script source).run.Asks
          (Confined setup.workDirectory)) ↔
        Path.Descends (Create.keyOf project script)) := by
  refine ⟨⟨descends_of_staysInside checked, ?_⟩, confined_create_iff⟩
  rintro ⟨named, descends⟩
  exact staysInside_of_descends checked named descends

theorem town_confined :
    StaysInside "town" [roads] ∧
      ∀ setup source, (Create.create setup "town" "roads.lua" source).run.Asks
        (Confined setup.workDirectory) := by
  have both : (StaysInside "town" [roads] ↔ "town" ≠ "" ∧ Path.Descends "town") ∧
      (_ ↔ Path.Descends (Create.keyOf "town" "roads.lua")) := confined_iff_descends rfl
  exact ⟨both.1.mpr (by decide), both.2.mpr (by decide)⟩

/-- What first imports are set up with. -/
def importSetup : Create.Setup :=
  { workDirectory := ⟨"/work"⟩, bucket := "maps", headers := [] }

/-- A script that no entity may have leads a first import out of the work directory. -/
theorem upwardScript_leaves :
    Entity.check [{ roads with script := "../../roads.lua" }] ≠ .ok () ∧
      ¬ (Create.create importSetup "town" "../../roads.lua" ⟨.localFile, "dump.osm.pbf"⟩).run.Asks
        (Confined importSetup.workDirectory) := by
  refine ⟨by decide, fun asks => ?_⟩
  have fetches := Task.asks_first asks
  have inside := within_of_asks_fetchScript fetches
  have outside : ¬ importSetup.workDirectory.resolveFrom [] <+:
      (importSetup.workDirectory.join (Create.keyOf "town" "../../roads.lua")).resolveFrom [] := by
    decide
  exact outside (inside [])

end MapReplica.Update
