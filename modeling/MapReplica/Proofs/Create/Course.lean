import MapReplica.Create
import MapReplica.Proofs.Feed.Requests

/-!
# The course of a first import

A first import puts the script in its place, gets the dump and calls the import tool, in this
order, and the first failure ends it. The relations below say for each of these steps how it can
go, with all that is asked and with what it ends.
-/

namespace MapReplica.Create

open Dialogue Feed

variable {setup : Setup} {project script key url server : String} {source : Dump.Source}
  {style dump : Path} {answer : Except Http.Fault Http.Response}
  {exchanges front middle back : List (Exchange collaborators)} {outcome : Except Failure Unit}
  {place : Except Failure Path} {entry : Except Failure Dump.Entry}

/-! ## The script -/

/-- How the script is put in its place: the bucket has to exist, and then it is read and written. -/
inductive Scripted (setup : Setup) (key : String) :
    List (Exchange collaborators) → Except Failure Path → Prop
  | unknown (failure : Failure) :
      Scripted setup key [Inquiry.answered .bucketExists (Except.error failure)] (.error failure)
  | noBucket :
      Scripted setup key [Inquiry.answered .bucketExists (Except.ok false)]
        (.error (.bucketMissing setup.bucket))
  | unread (failure : Failure) :
      Scripted setup key
        [Inquiry.answered .bucketExists (Except.ok true),
          Inquiry.answered (.getObject key) (Except.error failure)]
        (.error failure)
  | unwritten {body : Bytes} {exchanges : List (Exchange collaborators)} {failure : Failure}
      (placed : Placed (setup.workDirectory.join key) body exchanges (.error failure)) :
      Scripted setup key
        (Inquiry.answered .bucketExists (Except.ok true) ::
          Inquiry.answered (.getObject key) (Except.ok body) :: exchanges)
        (.error failure)
  | written {body : Bytes} {exchanges : List (Exchange collaborators)}
      (placed : Placed (setup.workDirectory.join key) body exchanges (.ok ())) :
      Scripted setup key
        (Inquiry.answered .bucketExists (Except.ok true) ::
          Inquiry.answered (.getObject key) (Except.ok body) :: exchanges)
        (.ok (setup.workDirectory.join key))

theorem ends_fetchScript_iff :
    Ends (fetchScript setup key).run exchanges place ↔ Scripted setup key exchanges place := by
  constructor
  · intro ends
    obtain ⟨known, after, rfl, asked⟩ := ends_ask_iff.mp ends
    obtain failure | (_ | _) := known
    · obtain ⟨rfl, rfl⟩ := ends_done_iff.mp asked
      exact .unknown failure
    · obtain ⟨rfl, rfl⟩ := ends_done_iff.mp asked
      exact .noBucket
    obtain ⟨object, later, rfl, read⟩ := ends_ask_iff.mp asked
    obtain failure | body := object
    · obtain ⟨rfl, rfl⟩ := ends_done_iff.mp read
      exact .unread failure
    rcases Task.ends_bind_iff.mp read with ⟨failure, rfl, put⟩ | ⟨front, _, back, rfl, put, last⟩
    · exact .unwritten (ends_place_iff.mp put)
    · obtain ⟨rfl, rfl⟩ := ends_done_iff.mp last
      rw [List.append_nil]
      exact .written (ends_place_iff.mp put)
  · intro scripted
    cases scripted with
    | unknown failure => exact ends_ask_iff.mpr ⟨_, [], rfl, .done _⟩
    | noBucket => exact ends_ask_iff.mpr ⟨_, [], rfl, .done _⟩
    | unread failure =>
        exact ends_ask_iff.mpr ⟨_, _, rfl, ends_ask_iff.mpr ⟨_, [], rfl, .done _⟩⟩
    | unwritten placed =>
        refine ends_ask_iff.mpr ⟨_, _, rfl, ends_ask_iff.mpr ⟨_, _, rfl, ?_⟩⟩
        exact Task.ends_bind_iff.mpr (.inl ⟨_, rfl, ends_place_iff.mpr placed⟩)
    | written placed =>
        refine ends_ask_iff.mpr ⟨_, _, rfl, ends_ask_iff.mpr ⟨_, _, rfl, ?_⟩⟩
        exact Task.ends_bind_iff.mpr
          (.inr ⟨_, (), [], (List.append_nil _).symm, ends_place_iff.mpr placed, .done _⟩)

/-! ## The dump -/

/-- How a dump is downloaded from a url: it is there only if it came to its end. -/
inductive Downloaded (setup : Setup) (url : String) :
    List (Exchange collaborators) → Except Failure Path → Prop
  | failed {exchanges : List (Exchange collaborators)} {failure : Failure}
      (fetched : Fetched url setup.headers (setup.workDirectory.join "dump.osm.pbf") exchanges
        (.error failure)) :
      Downloaded setup url exchanges (.error failure)
  | whole {exchanges : List (Exchange collaborators)}
      (fetched : Fetched url setup.headers (setup.workDirectory.join "dump.osm.pbf") exchanges
        (.ok ())) :
      Downloaded setup url exchanges (.ok (setup.workDirectory.join "dump.osm.pbf"))

theorem ends_downloadDump_iff :
    Ends (downloadDump setup url).run exchanges place ↔ Downloaded setup url exchanges place := by
  rw [downloadDump, Task.ends_bind_iff]
  simp only [ends_download_iff]
  constructor
  · rintro (⟨failure, rfl, fetched⟩ | ⟨front, _, back, rfl, fetched, last⟩)
    · exact .failed fetched
    · obtain ⟨rfl, rfl⟩ := ends_done_iff.mp last
      rw [List.append_nil]
      exact .whole fetched
  · intro downloaded
    cases downloaded with
    | failed fetched => exact .inl ⟨_, rfl, fetched⟩
    | whole fetched => exact .inr ⟨_, (), [], (List.append_nil _).symm, fetched, .done _⟩

/-- What the answer of a dump server is taken for: the first entry of a listing that came whole. -/
inductive Listed (server : String) :
    Except Http.Fault Http.Response → Except Failure Dump.Entry → Prop
  | unanswered {answer : Except Http.Fault Http.Response} {failure : Failure}
      (answered : Answered (Dump.newestUrl server) answer (.error failure)) :
      Listed server answer (.error failure)
  | interrupted {answer : Except Http.Fault Http.Response} {response : Http.Response}
      (answered : Answered (Dump.newestUrl server) answer (.ok response))
      (part : response.complete = false) :
      Listed server answer
        (.error (.requestBroken (Dump.newestUrl server) "error decoding response body"))
  | unreadable {answer : Except Http.Fault Http.Response} {response : Http.Response}
      (answered : Answered (Dump.newestUrl server) answer (.ok response))
      (all : response.complete = true) (garbled : Dump.entries? response.body = none) :
      Listed server answer
        (.error (.requestBroken (Dump.newestUrl server) "error decoding response body"))
  | empty {answer : Except Http.Fault Http.Response} {response : Http.Response}
      (answered : Answered (Dump.newestUrl server) answer (.ok response))
      (all : response.complete = true) (nothing : Dump.entries? response.body = some []) :
      Listed server answer (.error (.noDumps server))
  | newest {answer : Except Http.Fault Http.Response} {response : Http.Response}
      {entry : Dump.Entry} {older : List Dump.Entry}
      (answered : Answered (Dump.newestUrl server) answer (.ok response))
      (all : response.complete = true)
      (listing : Dump.entries? response.body = some (entry :: older)) :
      Listed server answer (.ok entry)

theorem ends_newest_iff {headers : List Http.Header} :
    Ends (Dump.newest server headers).run exchanges entry ↔
      ∃ answer, exchanges = [Inquiry.answered (.fetch (Dump.newestUrl server) headers) answer] ∧
        Listed server answer entry := by
  rw [Dump.newest, Task.ends_bind_iff]
  simp only [ends_get_iff]
  constructor
  · rintro (⟨failure, rfl, answer, rfl, answered⟩ |
      ⟨_, response, back, rfl, ⟨answer, rfl, answered⟩, rest⟩)
    · exact ⟨answer, rfl, .unanswered answered⟩
    cases all : response.complete with
    | false =>
        simp only [bodyOf, all] at rest
        obtain ⟨rfl, rfl⟩ := ends_done_iff.mp rest
        exact ⟨answer, rfl, .interrupted answered all⟩
    | true =>
        simp only [bodyOf, all, if_true, LawfulMonad.pure_bind] at rest
        split at rest
        case h_1 garbled =>
          obtain ⟨rfl, rfl⟩ := ends_done_iff.mp rest
          exact ⟨answer, rfl, .unreadable answered all garbled⟩
        case h_2 nothing =>
          obtain ⟨rfl, rfl⟩ := ends_done_iff.mp rest
          exact ⟨answer, rfl, .empty answered all nothing⟩
        case h_3 listing =>
          obtain ⟨rfl, rfl⟩ := ends_done_iff.mp rest
          exact ⟨answer, rfl, .newest answered all listing⟩
  · rintro ⟨answer, rfl, listed⟩
    cases listed with
    | unanswered answered => exact .inl ⟨_, rfl, _, rfl, answered⟩
    | interrupted answered part =>
        refine .inr ⟨_, _, [], rfl, ⟨_, rfl, answered⟩, ?_⟩
        simp only [bodyOf, part]
        exact .done _
    | unreadable answered all garbled =>
        refine .inr ⟨_, _, [], rfl, ⟨_, rfl, answered⟩, ?_⟩
        simp only [bodyOf, all, if_true, LawfulMonad.pure_bind, garbled]
        exact .done _
    | empty answered all nothing =>
        refine .inr ⟨_, _, [], rfl, ⟨_, rfl, answered⟩, ?_⟩
        simp only [bodyOf, all, if_true, LawfulMonad.pure_bind, nothing]
        exact .done _
    | newest answered all listing =>
        refine .inr ⟨_, _, [], rfl, ⟨_, rfl, answered⟩, ?_⟩
        simp only [bodyOf, all, if_true, LawfulMonad.pure_bind, listing]
        exact .done _

/-- How the dump of a source is got. -/
inductive Supplied (setup : Setup) :
    Dump.Source → List (Exchange collaborators) → Except Failure Path → Prop
  | localFile (path : String) : Supplied setup ⟨.localFile, path⟩ [] (.ok ⟨path⟩)
  | remoteUrl {url : String} {exchanges : List (Exchange collaborators)}
      {place : Except Failure Path} (downloaded : Downloaded setup url exchanges place) :
      Supplied setup ⟨.remoteUrl, url⟩ exchanges place
  | unlisted {server : String} {answer : Except Http.Fault Http.Response} {failure : Failure}
      (listed : Listed server answer (.error failure)) :
      Supplied setup ⟨.dumpServer, server⟩
        [Inquiry.answered (.fetch (Dump.newestUrl server) setup.headers) answer] (.error failure)
  | listed {server : String} {answer : Except Http.Fault Http.Response} {entry : Dump.Entry}
      {exchanges : List (Exchange collaborators)} {place : Except Failure Path}
      (listed : Listed server answer (.ok entry))
      (downloaded : Downloaded setup entry.url exchanges place) :
      Supplied setup ⟨.dumpServer, server⟩
        (Inquiry.answered (.fetch (Dump.newestUrl server) setup.headers) answer :: exchanges) place

theorem ends_fetchDump_iff :
    Ends (fetchDump setup source).run exchanges place ↔ Supplied setup source exchanges place := by
  obtain ⟨kind, place⟩ := source
  cases kind with
  | localFile =>
      refine ends_done_iff.trans ⟨?_, ?_⟩
      · rintro ⟨rfl, rfl⟩
        exact .localFile place
      · rintro ⟨⟩
        exact ⟨rfl, rfl⟩
  | remoteUrl =>
      refine ends_downloadDump_iff.trans ⟨.remoteUrl, ?_⟩
      rintro (_ | downloaded)
      exact downloaded
  | dumpServer =>
      rw [fetchDump, Task.ends_bind_iff]
      simp only [ends_newest_iff, ends_downloadDump_iff]
      constructor
      · rintro (⟨failure, rfl, answer, rfl, listed⟩ |
          ⟨_, entry, back, rfl, ⟨answer, rfl, listed⟩, downloaded⟩)
        · exact .unlisted listed
        · exact .listed listed downloaded
      · intro supplied
        cases supplied with
        | unlisted listed => exact .inl ⟨_, rfl, _, rfl, listed⟩
        | listed listed downloaded => exact .inr ⟨_, _, _, rfl, ⟨_, rfl, listed⟩, downloaded⟩

/-! ## The import -/

/-- How the import goes: one call of the tool, and if that fails all tools are ended once. -/
inductive Imported (style dump : Path) :
    List (Exchange collaborators) → Except Failure Unit → Prop
  | well : Imported style dump [Inquiry.answered (.importDump style dump) (Except.ok ())] (.ok ())
  | failed (failure : Failure) :
      Imported style dump
        [Inquiry.answered (.importDump style dump) (Except.error failure),
          Inquiry.answered .terminateTools ()]
        (.error failure)

/-- How a first import goes: to the first failure of a step, or to the end of the last one. -/
inductive Created (setup : Setup) (key : String) (source : Dump.Source) :
    List (Exchange collaborators) → Except Failure Unit → Prop
  | noScript {front : List (Exchange collaborators)} {failure : Failure}
      (scripted : Scripted setup key front (.error failure)) :
      Created setup key source front (.error failure)
  | noDump {front middle : List (Exchange collaborators)} {style : Path} {failure : Failure}
      (scripted : Scripted setup key front (.ok style))
      (supplied : Supplied setup source middle (.error failure)) :
      Created setup key source (front ++ middle) (.error failure)
  | imported {front middle back : List (Exchange collaborators)} {style dump : Path}
      {outcome : Except Failure Unit} (scripted : Scripted setup key front (.ok style))
      (supplied : Supplied setup source middle (.ok dump))
      (imported : Imported style dump back outcome) :
      Created setup key source (front ++ (middle ++ back)) outcome

end MapReplica.Create
