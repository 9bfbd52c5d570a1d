import MapReplica.Proofs.Create.Course
import MapReplica.Proofs.Json.RoundTrip
import MapReplica.Proofs.Text.Utf8

/-!
# One import of complete inputs

A first import calls the import tool at most once, and it does so exactly if the script is in its
place and the dump is there as a whole. Whatever fails before that is what it ends with, and
nothing is asked any more.
-/

namespace MapReplica

open Dialogue

variable {exchanges front middle back : List (Exchange collaborators)}

/-! ## Questions to the tools -/

/-- Whether a question is put to the tools. -/
def Inquiry.isForTools : Inquiry → Bool
  | .merge _ _ => true
  | .applyDiff _ => true
  | .importDump _ _ => true
  | .terminateTools => true
  | _ => false

/-- Nothing is asked of the tools. -/
def Toolless (exchanges : List (Exchange collaborators)) : Prop :=
  ∀ exchange ∈ exchanges, Inquiry.isForTools exchange.question = false

theorem toolless_nil : Toolless [] :=
  List.forall_mem_nil _

theorem Toolless.cons {exchange : Exchange collaborators} (toolless : Toolless exchanges)
    (other : Inquiry.isForTools exchange.question = false) : Toolless (exchange :: exchanges) :=
  List.forall_mem_cons.mpr ⟨other, toolless⟩

theorem Toolless.append (first : Toolless front) (second : Toolless back) :
    Toolless (front ++ back) :=
  List.forall_mem_append.mpr ⟨first, second⟩

namespace Feed

variable {url : String} {headers : List Http.Header} {path : Path} {content : Bytes}
  {outcome : Except Failure Unit}

theorem Placed.toolless (placed : Placed path content exchanges outcome) : Toolless exchanges := by
  cases placed with
  | noDirectory => exact toolless_nil.cons rfl
  | inDirectory => exact (toolless_nil.cons rfl).cons rfl
  | alone => exact toolless_nil.cons rfl

theorem Fetched.toolless (fetched : Fetched url headers path exchanges outcome) :
    Toolless exchanges := by
  cases fetched with
  | unanswered => exact toolless_nil.cons rfl
  | unplaced _ placed => exact placed.toolless.cons rfl
  | interrupted _ placed => exact placed.toolless.cons rfl
  | whole _ placed => exact placed.toolless.cons rfl

end Feed

namespace Create

open Feed

variable {setup : Setup} {project script key url : String} {source : Dump.Source}
  {style dump : Path} {place : Except Failure Path} {outcome : Except Failure Unit} {failure : Failure}

theorem Scripted.toolless (scripted : Scripted setup key exchanges place) : Toolless exchanges := by
  cases scripted with
  | unknown => exact toolless_nil.cons rfl
  | noBucket => exact toolless_nil.cons rfl
  | unread => exact (toolless_nil.cons rfl).cons rfl
  | unwritten placed => exact (placed.toolless.cons rfl).cons rfl
  | written placed => exact (placed.toolless.cons rfl).cons rfl

theorem Downloaded.toolless (downloaded : Downloaded setup url exchanges place) :
    Toolless exchanges := by
  cases downloaded with
  | failed fetched => exact fetched.toolless
  | whole fetched => exact fetched.toolless

theorem Supplied.toolless (supplied : Supplied setup source exchanges place) :
    Toolless exchanges := by
  cases supplied with
  | localFile => exact toolless_nil
  | remoteUrl downloaded => exact downloaded.toolless
  | unlisted => exact toolless_nil.cons rfl
  | listed _ downloaded => exact downloaded.toolless.cons rfl

/-! ## Counting -/

/-- Whether an exchange is a call of the import tool. -/
def isImport : Exchange collaborators → Bool
  | ⟨.importDump _ _, _⟩ => true
  | _ => false

/-- Whether an exchange ends all tools. -/
def isTermination : Exchange collaborators → Bool
  | ⟨.terminateTools, _⟩ => true
  | _ => false

theorem count_of_toolless {counts : Exchange collaborators → Bool} (toolless : Toolless exchanges)
    (tools : ∀ exchange, counts exchange = true → Inquiry.isForTools exchange.question = true) :
    exchanges.countP counts = 0 :=
  List.countP_eq_zero.mpr fun exchange member counted =>
    Bool.false_ne_true ((toolless exchange member).symm.trans (tools exchange counted))

theorem isForTools_of_isImport (exchange : Exchange collaborators)
    (imports : isImport exchange = true) : Inquiry.isForTools exchange.question = true := by
  obtain ⟨question, answer⟩ := exchange
  cases question with
  | importDump => rfl
  | _ => cases imports

theorem isForTools_of_isTermination (exchange : Exchange collaborators)
    (ended : isTermination exchange = true) : Inquiry.isForTools exchange.question = true := by
  obtain ⟨question, answer⟩ := exchange
  cases question with
  | terminateTools => rfl
  | _ => cases ended

/-! ## Complete inputs -/

/--
The exchanges begin with those after which the script is in its place and then with those after
which the dump is there as a whole.
-/
def Complete (setup : Setup) (key : String) (source : Dump.Source)
    (exchanges : List (Exchange collaborators)) : Prop :=
  ∃ style dump front middle back, exchanges = front ++ (middle ++ back) ∧
    Scripted setup key front (.ok style) ∧ Supplied setup source middle (.ok dump)

/-- How the tools are used in a first import, and what becomes of failures. -/
structure Careful (setup : Setup) (key : String) (source : Dump.Source)
    (exchanges : List (Exchange collaborators)) (outcome : Except Failure Unit) : Prop where
  once : exchanges.countP isImport ≤ 1
  exact : exchanges.countP isImport = 1 ↔ Complete setup key source exchanges
  early : ¬ Complete setup key source exchanges →
    Toolless exchanges ∧ ∃ failure, outcome = .error failure
  scriptFails : ∀ front back failure, exchanges = front ++ back →
    Scripted setup key front (.error failure) → back = [] ∧ outcome = .error failure
  dumpFails : ∀ front middle back style failure, exchanges = front ++ (middle ++ back) →
    Scripted setup key front (.ok style) → Supplied setup source middle (.error failure) →
      back = [] ∧ outcome = .error failure
  toolWorks : ∀ style dump,
    Inquiry.answered (.importDump style dump) (Except.ok ()) ∈ exchanges →
      exchanges.countP isTermination = 0 ∧ outcome = .ok ()
  toolFails : ∀ style dump failure,
    Inquiry.answered (.importDump style dump) (Except.error failure) ∈ exchanges →
      exchanges.countP isTermination = 1 ∧ outcome = .error failure

theorem Scripted.unique {other later : List (Exchange collaborators)} {result : Except Failure Path}
    (first : Scripted setup key front place) (second : Scripted setup key other result)
    (same : front ++ back = other ++ later) : front = other ∧ place = result ∧ back = later :=
  (ends_fetchScript_iff.mpr first).unique (ends_fetchScript_iff.mpr second) same

theorem Supplied.unique {other later : List (Exchange collaborators)} {result : Except Failure Path}
    (first : Supplied setup source front place) (second : Supplied setup source other result)
    (same : front ++ back = other ++ later) : front = other ∧ place = result ∧ back = later :=
  (ends_fetchDump_iff.mpr first).unique (ends_fetchDump_iff.mpr second) same

/-- Without a question to the tools the import has not been reached. -/
theorem careful_of_toolless (toolless : Toolless exchanges)
    (incomplete : ¬ Complete setup key source exchanges)
    (scriptFails : ∀ front back cause, exchanges = front ++ back →
      Scripted setup key front (.error cause) → back = [] ∧ failure = cause)
    (dumpFails : ∀ front middle back style cause, exchanges = front ++ (middle ++ back) →
      Scripted setup key front (.ok style) → Supplied setup source middle (.error cause) →
        back = [] ∧ failure = cause) :
    Careful setup key source exchanges (.error failure) where
  once := by simp [count_of_toolless toolless isForTools_of_isImport]
  exact := by simp [count_of_toolless toolless isForTools_of_isImport, incomplete]
  early _ := ⟨toolless, failure, rfl⟩
  scriptFails front back cause split scripted :=
    (scriptFails front back cause split scripted).imp_right (congrArg Except.error)
  dumpFails front middle back style cause split scripted supplied :=
    (dumpFails front middle back style cause split scripted supplied).imp_right
      (congrArg Except.error)
  toolWorks style dump member := by cases toolless _ member
  toolFails style dump cause member := by cases toolless _ member

theorem careful_of_noScript (scripted : Scripted setup key exchanges (.error failure)) :
    Careful setup key source exchanges (.error failure) := by
  have whole : exchanges = exchanges ++ [] := (List.append_nil _).symm
  refine careful_of_toolless scripted.toolless ?_ ?_ ?_
  · rintro ⟨style, dump, front, middle, back, split, well, -⟩
    cases (scripted.unique well (whole.symm.trans split)).2.1
  · intro front back cause split other
    obtain ⟨-, ⟨⟩, rfl⟩ := scripted.unique other (whole.symm.trans split)
    exact ⟨rfl, rfl⟩
  · intro front middle back style cause split well
    cases (scripted.unique well (whole.symm.trans split)).2.1

theorem careful_of_noDump (scripted : Scripted setup key front (.ok style))
    (supplied : Supplied setup source middle (.error failure)) :
    Careful setup key source (front ++ middle) (.error failure) := by
  have whole : middle = middle ++ [] := (List.append_nil _).symm
  refine careful_of_toolless (scripted.toolless.append supplied.toolless) ?_ ?_ ?_
  · rintro ⟨style, dump, front, middle, back, split, well, got⟩
    obtain ⟨-, -, rest⟩ := scripted.unique well split
    cases (supplied.unique got (whole.symm.trans rest)).2.1
  · intro front back cause split other
    cases (scripted.unique other split).2.1
  · intro front middle back style cause split well other
    obtain ⟨-, -, rest⟩ := scripted.unique well split
    obtain ⟨-, ⟨⟩, rfl⟩ := supplied.unique other (whole.symm.trans rest)
    exact ⟨rfl, rfl⟩

theorem careful_of_imported (scripted : Scripted setup key front (.ok style))
    (supplied : Supplied setup source middle (.ok dump))
    (imported : Imported style dump back outcome) :
    Careful setup key source (front ++ (middle ++ back)) outcome := by
  have complete : Complete setup key source (front ++ (middle ++ back)) :=
    ⟨style, dump, front, middle, back, rfl, scripted, supplied⟩
  have count {counts : Exchange collaborators → Bool}
      (tools : ∀ exchange, counts exchange = true →
        Inquiry.isForTools exchange.question = true) :
      (front ++ (middle ++ back)).countP counts = back.countP counts := by
    rw [List.countP_append, List.countP_append, count_of_toolless scripted.toolless tools,
      count_of_toolless supplied.toolless tools, Nat.zero_add, Nat.zero_add]
  have one : (front ++ (middle ++ back)).countP isImport = 1 := by
    rw [count isForTools_of_isImport]
    cases imported with
    | well => rfl
    | failed => rfl
  have last {exchange : Exchange collaborators} (member : exchange ∈ front ++ (middle ++ back))
      (asked : isImport exchange = true) : exchange ∈ back := by
    have tool := isForTools_of_isImport exchange asked
    rcases List.mem_append.mp member with early | member
    · cases (scripted.toolless exchange early).symm.trans tool
    rcases List.mem_append.mp member with early | late
    · cases (supplied.toolless exchange early).symm.trans tool
    · exact late
  refine ⟨Nat.le_of_eq one, iff_of_true one complete, absurd complete, ?_, ?_, ?_, ?_⟩
  · intro front back cause split other
    cases (scripted.unique other split).2.1
  · intro front middle back style cause split well other
    obtain ⟨-, -, rest⟩ := scripted.unique well split
    cases (supplied.unique other rest).2.1
  · intro style dump member
    rw [count isForTools_of_isTermination]
    have member := last member rfl
    cases imported with
    | well => exact ⟨rfl, rfl⟩
    | failed =>
        rcases List.mem_cons.mp member with same | other
        · cases same
        · cases List.mem_singleton.mp other
  · intro style dump cause member
    rw [count isForTools_of_isTermination]
    have member := last member rfl
    cases imported with
    | well => cases List.mem_singleton.mp member
    | failed =>
        rcases List.mem_cons.mp member with same | other
        · cases same
          exact ⟨rfl, rfl⟩
        · cases List.mem_singleton.mp other

/-- However a first import goes, it calls the import tool only on complete inputs. -/
theorem Created.careful (created : Created setup key source exchanges outcome) :
    Careful setup key source exchanges outcome := by
  cases created with
  | noScript scripted => exact careful_of_noScript scripted
  | noDump scripted supplied => exact careful_of_noDump scripted supplied
  | imported scripted supplied imported => exact careful_of_imported scripted supplied imported

end Create

end MapReplica
