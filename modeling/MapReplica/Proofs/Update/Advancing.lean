import MapReplica.Proofs.Update.Unprepared

/-!
# Texts that only advance

While nobody else writes the progress text of a project, the calls of a manager advance
it: its number is never lost or moved back, and the text around it stays. The one
exception is a cycle that is run on its own, which writes what the manager holds without
reading the text before. It advances the text exactly if what the manager holds continues
it.
-/

namespace MapReplica

namespace Progress

/-- A text in the object store with the number of another or a greater one, otherwise the same. -/
def Advances (old new : Bytes) : Prop :=
  ∃ before after, Utf8.decode? old = some before ∧ Utf8.decode? new = some after ∧
    Marker.Advances before.toList after.toList

/-- A progress whose content continues a text in the object store. -/
def Follows (text : Bytes) (progress : Progress) : Prop :=
  ∃ known, Utf8.decode? text = some known ∧
    Marker.Continues known.toList progress.content progress.next

variable {text old new : Bytes} {progress : Progress}

theorem advances_refl {sequence : Nat} (number : numberOf? text = some sequence) :
    Advances text text := by
  obtain ⟨known, decoded, read⟩ := Option.bind_eq_some_iff.mp number
  exact ⟨known, known, decoded, decoded, Marker.advances_refl read⟩

theorem Advances.trans (first : Advances old text) (second : Advances text new) :
    Advances old new := by
  obtain ⟨before, between, hbefore, hbetween, front⟩ := first
  obtain ⟨_, after, hagain, hafter, back⟩ := second
  cases hbetween.symm.trans hagain
  exact ⟨before, after, hbefore, hafter, front.trans back⟩

/-- The next text of a progress advances a text exactly if the progress follows it. -/
theorem advances_nextContent_iff :
    Advances text (Utf8.encodeChars progress.nextContent) ↔
      Follows text progress ∧ progress.next ≤ Number.maxSigned64 := by
  constructor
  · rintro ⟨known, written, decoded, again, advances⟩
    rw [Utf8.decode?_encodeChars] at again
    cases again
    rw [String.toList_ofList] at advances
    obtain ⟨continues, fits⟩ := Marker.advances_withNumber_iff.mp advances
    exact ⟨⟨known, decoded, continues⟩, fits⟩
  · rintro ⟨⟨known, decoded, continues⟩, fits⟩
    refine ⟨known, _, decoded, Utf8.decode?_encodeChars _, ?_⟩
    rw [String.toList_ofList]
    exact Marker.advances_withNumber_iff.mpr ⟨continues, fits⟩

/-- A progress that was loaded from a text follows it. -/
theorem follows_loaded {content : List Char} {sequence : Nat}
    (decoded : Utf8.decode? text = some (String.ofList content))
    (read : Marker.read? content = some sequence) :
    Follows text (progress.loaded content sequence) := by
  obtain ⟨marker, found, number⟩ := Option.bind_eq_some_iff.mp read
  refine ⟨_, decoded, marker, marker.run, sequence, ?_, found, number, ?_⟩
  · rw [String.toList_ofList]
    exact found
  · simp only [next, loaded]
    omega

/-- A progress follows the text that it has written. -/
theorem Follows.advanced (follows : Follows text progress)
    (fits : progress.next ≤ Number.maxSigned64) :
    Follows (Utf8.encodeChars progress.nextContent) progress.advanced.countDown := by
  obtain ⟨known, _, continues⟩ := follows
  obtain ⟨remaining, counted⟩ := countDown_eq progress.advanced
  rw [counted]
  refine ⟨_, Utf8.decode?_encodeChars _, ?_⟩
  rw [String.toList_ofList]
  apply continues.withNumber fits
  simp only [next, Progress.advanced]
  omega

end Progress

namespace Update

open Dialogue

/-- The newest of some texts has the number of another text or a greater one. -/
def Advanced (text : Bytes) (texts : List Bytes) : Prop :=
  ∃ newest, texts.head? = some newest ∧ Progress.Advances text newest

/-- A manager that holds what the newest text of a project is continued with. -/
def Abreast (project : String) (manager : Manager) (scene : Scene) : Prop :=
  manager.progress.project = project →
    ∃ newest, scene.texts.head? = some newest ∧ Progress.Follows newest manager.progress

/-- A cycle is run on its own only if its manager is abreast and its number is in range. -/
def Careful (project : String) (call : Call) (manager : Manager) (scene : Scene) : Prop :=
  ∀ feed, call = .next feed → Abreast project manager scene ∧
    (manager.progress.project = project → manager.progress.next ≤ Number.maxSigned64)

variable {setup : Setup} {order manager : Manager} {feeds : Set String} {project feed : String}
variable {scene last : Scene} {text : Bytes}

/-! ## Texts that stay -/

section Texts

variable {texts after : List Bytes} {question : Inquiry} {answer : question.Answer}
variable {allows : Scene → Inquiry → Prop}

/-- Work that puts no text of a project leaves its texts as they are. -/
theorem keeps_texts {α : Type} {dialogue : Dialogue collaborators α}
    (asks : dialogue.Asks fun question : Inquiry =>
      ∀ body, question ≠ .putObject (Progress.keyOf project) body)
    (allowed : ∀ now question, (∀ body, question ≠ .putObject (Progress.keyOf project) body) →
      now.texts = scene.texts → allows now question) :
    dialogue.Keeps (alone project) allows (fun _ now => now.texts = scene.texts) scene := by
  refine asks.invariant ?_ fun now question spares same => ?_
  · rfl
  refine ⟨allowed now question spares same, ?_⟩
  intro answer after step
  exact (same_of_writes spares step.2).trans same

/-- A cycle leaves the texts as they are up to its commit. -/
theorem keeps_commit_of {wanted : Except Failure Unit × Manager → Scene → Prop}
    (spared : ∀ now question, (∀ body, question ≠ .putObject (Progress.keyOf project) body) →
      now.texts = scene.texts → allows now question)
    (fails : ∀ failure now, now.texts = scene.texts → wanted (.error failure, manager) now)
    (commits : ∀ now, now.texts = scene.texts →
      allows now (.putObject manager.progress.key
        (Utf8.encodeChars manager.progress.nextContent)) ∧
      ∀ (answer : Except Failure Unit) after, Writes project scene.texts
        (.putObject manager.progress.key (Utf8.encodeChars manager.progress.nextContent)) answer
          after.texts → wanted (committed manager answer) after) :
    ((appendNext setup feed).starting manager).Keeps (alone project) allows wanted scene := by
  apply keeps_appendNext_of fun _ now => now.texts = scene.texts
  · apply keeps_texts (asks_cycle.mono ?_) spared
    rintro question asked body rfl
    exact asked.spares project rfl
  · intro outcome now same
    have cleans : (cleanUp setup manager outcome).run.Asks fun question : Inquiry =>
        ∀ body, question ≠ .putObject (Progress.keyOf project) body :=
      asks_cleanUp (fun _ => nofun) fun _ _ _ => nofun
    apply (keeps_texts cleans fun last question spares still =>
      spared last question spares (still.trans same)).mono
    exact fun _ _ still => still.trans same
  · exact fails
  · intro now same
    obtain ⟨allowed, wanted⟩ := commits now same
    exact ⟨allowed, fun answer after step => wanted answer after (same ▸ step.2)⟩

end Texts

/-! ## Cycles and drives -/

/-- A cycle of a manager that is abreast advances the text, and leaves the manager abreast. -/
theorem keeps_advanced_next (advanced : Advanced text scene.texts)
    (abreast : Abreast project manager scene)
    (fits : manager.progress.project = project → manager.progress.next ≤ Number.maxSigned64) :
    ((appendNext setup feed).starting manager).Keeps (alone project)
      (fun now _ => Advanced text now.texts)
      (fun result now => Advanced text now.texts ∧
        (result.1 = .ok () → Abreast project result.2 now)) scene := by
  apply keeps_commit_of
  · intro now question _ same
    rwa [same]
  · intro failure now same
    rw [same]
    exact ⟨advanced, nofun⟩
  · intro now same
    refine ⟨same ▸ advanced, fun answer after writes => ?_⟩
    by_cases own : manager.progress.project = project
    · obtain ⟨newest, head, follows⟩ := abreast own
      rcases writes with ⟨-, wrote⟩ | ⟨failed, unchanged⟩
      · obtain ⟨_, newer, advances⟩ := advanced
        cases head.symm.trans newer
        have next := Progress.advances_nextContent_iff.mpr ⟨follows, fits own⟩
        rw [wrote]
        refine ⟨⟨_, rfl, advances.trans next⟩, ?_⟩
        rcases answer with failure | ⟨⟩
        · nofun
        · exact fun _ _ => ⟨_, congrArg List.head? wrote, follows.advanced (fits own)⟩
      · rw [unchanged]
        refine ⟨advanced, ?_⟩
        rcases answer with failure | ⟨⟩
        · nofun
        · cases failed (congrArg Progress.keyOf own)
    · have other : ∀ body, Inquiry.putObject manager.progress.key
          (Utf8.encodeChars manager.progress.nextContent) ≠
            .putObject (Progress.keyOf project) body := by
        intro body same
        injection same with key
        exact own (Progress.keyOf_injective key)
      rw [same_of_writes other writes]
      refine ⟨advanced, ?_⟩
      rcases answer with failure | ⟨⟩
      · nofun
      · intro _ same
        obtain ⟨remaining, counted⟩ := Progress.countDown_eq manager.progress.advanced
        exact (own ((congrArg Progress.project counted).symm.trans same)).elim

/-- A manager that has loaded its number is abreast. -/
theorem abreast_of_load {answer : Except Failure Bytes} {progress : Progress}
    {texts : List Bytes} (same : SameOrder order manager)
    (read : readProject manager.progress answer = (.ok (), progress))
    (writes : Writes project texts (.getObject order.progress.key) answer last.texts) :
    Abreast project { manager with progress } last := by
  intro own
  obtain ⟨body, content, sequence, rfl, decoded, number, rfl⟩ := of_readProject_ok read
  obtain ⟨unchanged, current⟩ := writes
  refine ⟨body, ?_, Progress.follows_loaded decoded number⟩
  rw [unchanged]
  exact current body (congrArg Progress.keyOf (same.project.symm.trans own)) rfl

theorem advanced_of_writes {texts after : List Bytes} {question : Inquiry}
    {answer : question.Answer} (advanced : Advanced text texts)
    (writes : Writes project texts question answer after)
    (spares : ∀ body, question ≠ .putObject (Progress.keyOf project) body) :
    Advanced text after := by
  rwa [same_of_writes spares writes]

/-- What is known of the texts of a project, as it steers drives. -/
def advancing (project : String) (text : Bytes) (setup : Setup) (order : Manager) :
    Steering (alone project) (fun now _ => Advanced text now.texts) setup order Set.univ where
  outside now := Advanced text now.texts
  inside now := Advanced text now.texts
  known manager now := Advanced text now.texts ∧ Abreast project manager now
  held _ known := known.1
  idle := by
    intro now inquiry idle advanced
    refine ⟨advanced, fun answer after step => advanced_of_writes advanced step.2 ?_⟩
    cases idle <;> exact fun _ => nofun
  reserve := by
    intro now advanced
    refine ⟨advanced, fun answer after step => ?_⟩
    have still := advanced_of_writes advanced step.2 fun _ => nofun
    exact ⟨fun _ => still, fun _ => still⟩
  release := by
    intro now advanced
    exact ⟨advanced, fun answer after step =>
      advanced_of_writes advanced step.2 fun _ => nofun⟩
  load := by
    intro manager now same advanced
    refine ⟨advanced, fun answer after step => ?_⟩
    have still := advanced_of_writes advanced step.2 fun _ => nofun
    exact ⟨still, fun progress read => ⟨still, abreast_of_load same read step.2⟩⟩
  fetch := by
    rintro manager now url headers same ⟨advanced, abreast⟩
    refine ⟨advanced, fun answer after step => ?_⟩
    have unchanged : after.texts = now.texts := step.2
    refine ⟨unchanged ▸ advanced, fun own => ?_⟩
    rw [unchanged]
    exact abreast own
  remote := by
    rintro manager now ⟨advanced, abreast⟩ remote
    exact ⟨advanced, abreast⟩
  appendNext := by
    rintro manager now feed - same ⟨advanced, abreast⟩ range behind
    have fits : manager.progress.next ≤ Number.maxSigned64 := by
      have ahead : ¬ manager.progress.remote ≤ manager.progress.current :=
        of_decide_eq_false behind
      unfold Progress.next
      omega
    apply ((keeps_advanced_next advanced abreast fun _ => fits).and
      (keeps_same_appendNext same)).mono
    rintro ⟨outcome, after⟩ last ⟨⟨advanced, abreast⟩, same, remote⟩
    exact ⟨same, advanced, fun value ok => ⟨⟨advanced, abreast ok⟩, remote⟩⟩

/-! ## Calls -/

/-- A call that is careful only advances the text of a project, at every moment. -/
theorem keeps_advanced_call {call : Call} (careful : Careful project call manager scene)
    (advanced : Advanced text scene.texts) :
    ((call.work setup).starting manager).Keeps (alone project)
      (fun now _ => Advanced text now.texts) (fun _ now => Advanced text now.texts) scene := by
  cases call with
  | prepare assignment =>
      have spares : ((prepare setup assignment.project assignment.entities assignment.targets
          assignment.limit).starting manager).Asks fun question : Inquiry =>
            ∀ body, question ≠ .putObject (Progress.keyOf project) body := by
        apply asks_prepare.mono
        rintro question asked body rfl
        cases asked with
        | load asked => cases asked
      apply (keeps_texts spares _).mono
      · intro result now same
        rwa [same]
      · intro now question _ same
        rwa [same]
  | drive way =>
      apply ((advancing project text setup manager).keeps_work trivial (.refl manager)
        advanced).mono
      exact fun _ _ ended => ended.free
  | next feed =>
      obtain ⟨abreast, fits⟩ := careful feed rfl
      exact (keeps_advanced_next advanced abreast fits).mono fun _ _ ended => ended.1
  | stop =>
      apply ((advancing project text setup manager).conduct.keeps_stop
        ⟨.refl manager, advanced⟩).mono
      exact fun _ _ ended => ((advancing project text setup manager).outside_of_ended ended).free

/--
Nobody else writing the progress text of a project, and every cycle that is run on its own
being careful: whatever a manager is called for and however its calls end, at every moment
the text has the number that it had at first or a greater one, and is otherwise the same.
A cycle that is run on its own advances the text exactly if it is careful.
-/
theorem advances_iff_careful {first : Bytes} {sequence : Nat} {begins : Manager} {start : Scene}
    (newest : start.texts.head? = some first)
    (readable : Progress.numberOf? first = some sequence)
    (history : History (alone project) setup
      (fun call manager scene _ => Careful project call manager scene) begins start manager
        scene) :
    (∀ call rest last, Careful project call manager scene →
      Leads (alone project) ((Call.work setup call).starting manager) scene rest last →
        Advanced first last.texts) ∧
      ∀ feed body next last,
        Leads (alone project) ((appendNext setup feed).starting manager) scene
          (.ask (P := collaborators) (.putObject (Progress.keyOf project) body) next) last →
        ∃ old, last.texts.head? = some old ∧
          (Progress.Advances old body ↔ Careful project (.next feed) manager scene) := by
  have advanced : Advanced first scene.texts := by
    apply history.invariant ⟨first, newest, Progress.advances_refl readable⟩
    intro call manager scene outcome careful advanced
    exact (keeps_advanced_call careful advanced).mono fun _ _ still _ => still
  constructor
  · intro call rest last careful run
    have keeps := (keeps_advanced_call careful advanced).leads run
    cases rest with
    | done value => exact keeps
    | ask question next => exact keeps.1
  · intro feed body next last run
    have commits : ((appendNext setup feed).starting manager).Keeps (alone project)
        (fun now question => ∀ body, question = .putObject (Progress.keyOf project) body →
          manager.progress.project = project ∧
            body = Utf8.encodeChars manager.progress.nextContent ∧ now.texts = scene.texts)
        (fun _ _ => True) scene := by
      apply keeps_commit_of
      · rintro now question spares same body rfl
        exact (spares body rfl).elim
      · exact fun _ _ _ => trivial
      · intro now same
        refine ⟨fun body put => ?_, fun _ _ _ => trivial⟩
        injection put with key content
        exact ⟨Progress.keyOf_injective key, content.symm, same⟩
    obtain ⟨own, rfl, same⟩ := (commits.leads run).1 body rfl
    obtain ⟨old, head, -⟩ := advanced
    refine ⟨old, same ▸ head, Progress.advances_nextContent_iff.trans ?_⟩
    constructor
    · rintro ⟨follows, fits⟩ _ _
      exact ⟨fun _ => ⟨old, head, follows⟩, fun _ => fits⟩
    · intro careful
      obtain ⟨abreast, fits⟩ := careful feed rfl
      obtain ⟨_, again, follows⟩ := abreast own
      cases head.symm.trans again
      exact ⟨follows, fits own⟩

/-- A call of the manager of the town against obliging collaborators. -/
def townCall (call : Call) (manager : Manager) (scene : Scene) :
    Dialogue collaborators (Except Failure Unit × Manager) × Scene :=
  ((call.work townSetup).starting manager).advance (P := collaborators) (obligingly "town") 20 scene

theorem leads_townCall {call : Call} {manager after : Manager} {scene : Scene}
    {outcome : Except Failure Unit}
    (ended : (townCall call manager scene).1.value? = some (outcome, after)) :
    Leads (alone "town") ((call.work townSetup).starting manager) scene
      (.done (outcome, after)) (townCall call manager scene).2 := by
  rw [← eq_done_of_value? ended]
  exact leads_obligingly "town" 20 _ scene

/-- The town after its preparation. -/
def townBegun : Scene := (townCall (.prepare townAssignment) .fresh ⟨[], [firstText]⟩).2

theorem leads_townBegun :
    Leads (alone "town") (((Call.prepare townAssignment).work townSetup).starting .fresh)
      ⟨[], [firstText]⟩ (.done (.ok (), townManager)) townBegun :=
  leads_townCall rfl

/-- The manager of the town after a batch, and the texts then. -/
def townBatched : Dialogue collaborators (Except Failure Unit × Manager) × Scene :=
  townCall (.drive (.append "feed")) townManager townBegun

/-- The manager of the town after the batch. -/
def townFollower : Manager :=
  (townBatched.1.value?.map Prod.snd).getD .fresh

theorem townBatched_ended : ∃ outcome, townBatched.1.value? = some (outcome, townFollower) := by
  have ended : townBatched.1.value?.isSome = true := by decide +kernel
  obtain ⟨⟨outcome, manager⟩, value⟩ := Option.isSome_iff_exists.mp ended
  refine ⟨outcome, ?_⟩
  rw [townFollower, value]
  rfl

/-- How far the town is after the batch. -/
def townAhead : Progress where
  project := "town"
  start := 1
  current := 2
  remote := 2
  commits := 1
  content := "sequenceNumber=2".toList

theorem townFollower_progress : townFollower.progress = townAhead := by
  decide +kernel

theorem townAhead_follows :
    Progress.Follows (Utf8.encode "sequenceNumber=2") townAhead := by
  have found : Marker.find? "sequenceNumber=2".toList =
      some ⟨"sequenceNumber=".toList, ['2'], []⟩ := by decide
  exact ⟨"sequenceNumber=2", by decide, _, ['2'], 2, found, found, by decide, by decide⟩

/-- A cycle that is run on its own after the batch. -/
def townNext : Dialogue collaborators (Except Failure Unit × Manager) × Scene :=
  townCall (.next "feed") townFollower townBatched.2

/-- The batch and a cycle that is run on its own after it advance the text of the town to 3. -/
theorem townNext_advances :
    townNext.2.texts.head? = some (Utf8.encode "sequenceNumber=3") ∧
      Advanced firstText townNext.2.texts := by
  have careful : Careful "town" (.next "feed") townFollower townBatched.2 := by
    intro feed _
    unfold Abreast
    rw [townFollower_progress]
    constructor
    · intro _
      exact ⟨Utf8.encode "sequenceNumber=2", by decide +kernel, townAhead_follows⟩
    · intro _
      decide
  obtain ⟨outcome, ended⟩ := townBatched_ended
  have history : History (alone "town") townSetup
      (fun call manager scene _ => Careful "town" call manager scene) .fresh ⟨[], [firstText]⟩
        townFollower townBatched.2 := by
    refine .call (.call .start leads_townBegun ?_) (leads_townCall ended) ?_
    · exact fun _ => nofun
    · exact fun _ => nofun
  have readable : Progress.numberOf? firstText = some 1 := by decide
  obtain ⟨advances, -⟩ := advances_iff_careful rfl readable history
  refine ⟨by decide +kernel, advances (.next "feed") townNext.1 townNext.2 careful ?_⟩
  exact leads_obligingly "town" 20 _ _

/-- A cycle that is run on its own right after the preparation. -/
def townLost : Dialogue collaborators (Except Failure Unit × Manager) × Scene :=
  townCall (.next "feed") townManager townBegun

/-- A cycle right after the preparation replaces the text of the town by an empty one. -/
theorem townLost_destroys :
    (∃ manager, History (alone "town") townSetup (fun _ _ _ _ => True) .fresh ⟨[], [firstText]⟩
        manager townLost.2) ∧
      Progress.numberOf? firstText = some 1 ∧ townLost.2.texts.head? = some [] ∧
      ¬ Advanced firstText townLost.2.texts := by
  have lost : townLost.2.texts.head? = some [] := by decide +kernel
  refine ⟨?_, by decide, lost, ?_⟩
  · have ended : townLost.1.value?.isSome = true := by decide +kernel
    obtain ⟨⟨outcome, manager⟩, value⟩ := Option.isSome_iff_exists.mp ended
    exact ⟨manager, .call (.call .start leads_townBegun trivial) (leads_townCall value) trivial⟩
  · rintro ⟨newest, head, _, after, _, empty, advances⟩
    cases lost.symm.trans head
    cases empty
    obtain ⟨_, _, _, _, _, found, _⟩ := advances
    cases found

end Update

end MapReplica
