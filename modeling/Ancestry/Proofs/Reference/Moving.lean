import Ancestry.Proofs.FileSystem.Ascents
import Ancestry.Proofs.Reference.Chains

/-!
# Moving what is checked out

A reference that is moved is the one that was checked out, and no other file changes. When it
cannot be moved no file changes at all, though directories may have been made on the way and a
spare file may be left. So every reference is read as before, unless its path steps up from a
directory that was missing, or comes to the spare file.
-/

namespace Ancestry.RefFiles

open FileSystem

variable {directory path : Path} {files after : FileSystem} {name next last : RefName}
  {value : Option ObjectId} {id : ObjectId} {links : Nat} {failure : Failure} {text : String}
  {draw : UInt32}

/-- The content of a file is the same where the same files stand, unless there is a new one. -/
theorem content?_kept (covers : Covers files after)
    (same : ∀ place bytes, after.find path = .ok place →
      (after.entry? place = some (.file bytes) ↔ files.entry? place = some (.file bytes)))
    (old : after.hasFile path = true → files.hasFile path = true) :
    content? after path = content? files path := by
  by_cases present : files.hasFile path = true
  · obtain ⟨place, bytes, found, stands⟩ := hasFile_iff.mp present
    have foundAfter := covers.find found
    have standsAfter := (same place bytes foundAfter).mpr stands
    have presentAfter : after.hasFile path = true :=
      hasFile_iff.mpr ⟨place, bytes, foundAfter, standsAfter⟩
    have read : after.readText path = files.readText path := by
      rw [readText, FileSystem.read, foundAfter, readText, FileSystem.read, found]
      simp only [standsAfter, stands]
    rw [content?, content?, presentAfter, present, read]
  · have absent : ¬ after.hasFile path = true := fun presentAfter => present (old presentAfter)
    rw [content?, content?, if_neg absent, if_neg present]

/-- More directories leave the content of a file as it is, unless they give the path a file. -/
theorem content?_furnished (furnished : Furnished files after)
    (old : after.hasFile path = true → files.hasFile path = true) :
    content? after path = content? files path :=
  content?_kept furnished.covers (fun _ _ _ => furnished.file_iff) old

/-- A write leaves the content of the files that are found elsewhere. -/
theorem Wrote.content? {entry : String} {here : Location} {written : Path}
    (wrote : Wrote files written text after entry here)
    (apart : after.find path ≠ .ok (entry :: here))
    (old : after.hasFile path = true → files.hasFile path = true) :
    content? after path = content? files path := by
  refine content?_kept wrote.covers (fun place bytes found => wrote.file_iff ?_) old
  rintro rfl
  exact apart found

/-- Two paths to one place hold the same. -/
theorem Points.alike {other : Path} {place : Location} (points : Points files path next)
    (found : files.find path = .ok place) (alike : files.find other = .ok place) :
    Points files other next := by
  obtain ⟨present, ⟨text, read, spelled⟩, filled, oneLine⟩ := points
  rw [hasFile, lookup?, found] at present
  rw [readText, FileSystem.read, found] at read
  refine ⟨?_, ⟨text, ?_, spelled⟩, filled, oneLine⟩
  · rw [hasFile, lookup?, alike]
    exact present
  · rw [readText, FileSystem.read, alike]
    exact read

/-- A file that points to a reference is not the one that a reference with a value is written to,
when no step up of that one's path starts from a new place. -/
theorem Wrote.points {entry : String} {here : Location} {written : Path}
    (wrote : Wrote files written text after entry here) (closed : Closed files)
    (grounded : Grounded files [] written.pieces) (stores : Stores files written value)
    (points : Points files path next) : Points after path next := by
  have apart : after.find path ≠ .ok (entry :: here) := by
    intro found
    obtain ⟨place, bytes, before, stands⟩ := hasFile_iff.mp points.present
    obtain rfl := Except.ok.inj ((wrote.covers.find before).symm.trans found)
    have alike := wrote.covers.find_back closed grounded wrote.found (by rw [stands]; rfl)
    exact stores.not_points (points.alike before alike)
  have content := wrote.content? apart fun _ => points.present
  rw [content?_symbolic.mpr points] at content
  exact content?_symbolic.mp content

/-- More directories leave a file that points to a reference. -/
theorem Points.furnish (points : Points files path next) (furnished : Furnished files after) :
    Points after path next := by
  have content := content?_furnished furnished fun _ => points.present
  rw [content?_symbolic.mpr points] at content
  exact content?_symbolic.mp content

/-- A file that is written where nothing stood leaves a file that points to a reference. -/
theorem Wrote.points_vacant {entry : String} {here : Location} {written : Path}
    (wrote : Wrote files written text after entry here)
    (vacant : files.entry? (entry :: here) = none) (points : Points files path next) :
    Points after path next := by
  have apart : after.find path ≠ .ok (entry :: here) := by
    intro found
    obtain ⟨place, bytes, before, stands⟩ := hasFile_iff.mp points.present
    obtain rfl := Except.ok.inj ((wrote.covers.find before).symm.trans found)
    rw [vacant] at stands
    cases stands
  have content := wrote.content? apart fun _ => points.present
  rw [content?_symbolic.mpr points] at content
  exact content?_symbolic.mp content

/-- A chain stays when the files in it point where they did. -/
theorem Leads.kept (leads : Leads directory files links name last)
    (kept : ∀ path next, Points files path next → Points after path next) :
    Leads directory after links name last := by
  induction leads with
  | here name => exact .here name
  | link points _ inductionHypothesis => exact .link (kept _ _ points) inductionHypothesis

/-- Files that are read one after the other, beginning with a path. -/
inductive Reaches (directory : Path) (files : FileSystem) : Path → Path → Prop where
  | here (path : Path) : Reaches directory files path path
  | link {path last : Path} {next : RefName} (points : Points files path next)
      (rest : Reaches directory files (directory.join next.path) last) :
      Reaches directory files path last

/-- No path that is read steps up from a place where nothing is. -/
def Firm (directory : Path) (files : FileSystem) (path : Path) : Prop :=
  ∀ last, Reaches directory files path last → Grounded files [] last.pieces

/-- No path that is read comes to some places among other files. -/
def Misses (directory : Path) (files after : FileSystem) (left : Location → Prop) (path : Path) :
    Prop :=
  ∀ last, Reaches directory files path last → ∀ place, after.find last = .ok place → ¬ left place

/-- What was there is there, and the files are the same up to some places. -/
structure Intact (files after : FileSystem) (left : Location → Prop) : Prop where
  covers : Covers files after
  same : ∀ place bytes, ¬ left place →
    (after.entry? place = some (.file bytes) ↔ files.entry? place = some (.file bytes))

variable {left : Location → Prop}

/-- More directories leave all files. -/
theorem intact_of_furnished (furnished : Furnished files after) : Intact files after left :=
  ⟨furnished.covers, fun _ _ _ => furnished.file_iff⟩

/-- What is read from the next path on is firm where a path is. -/
theorem Firm.onward (firm : Firm directory files path) (points : Points files path next) :
    Firm directory files (directory.join next.path) :=
  fun last reaches => firm last (.link points reaches)

/-- What is read from the next path on misses what is missed from a path on. -/
theorem Misses.onward (misses : Misses directory files after left path)
    (points : Points files path next) :
    Misses directory files after left (directory.join next.path) :=
  fun last reaches => misses last (.link points reaches)

/-- A path that leads to no other has only its own steps up. -/
theorem firm_of_stores (stores : Stores files path value)
    (grounded : Grounded files [] path.pieces) :
    Firm directory files path := by
  intro last reaches
  cases reaches with
  | here => exact grounded
  | link points _ => exact absurd points stores.not_points

/-- A path that leads to no other misses what it does not come to itself. -/
theorem misses_of_stores (stores : Stores files path value)
    (apart : ∀ place, after.find path = .ok place → ¬ left place) :
    Misses directory files after left path := by
  intro last reaches
  cases reaches with
  | here => exact apart
  | link points _ => exact absurd points stores.not_points

/-- A firm path has a file where it had one, unless it comes to a new one. -/
theorem Intact.hasFile (intact : Intact files after left) (closed : Closed files)
    (firm : Firm directory files path) (misses : Misses directory files after left path) :
    after.hasFile path = files.hasFile path := by
  rw [Bool.eq_iff_iff]
  constructor
  · refine intact.covers.hasFile_back closed (firm path (.here path)) fun place bytes found => ?_
    exact (intact.same place bytes (misses path (.here path) place found)).mp
  · intro present
    obtain ⟨place, bytes, found, stands⟩ := hasFile_iff.mp present
    have stays := intact.covers.find found
    exact hasFile_iff.mpr ⟨place, bytes, stays,
      (intact.same place bytes (misses path (.here path) place stays)).mpr stands⟩

/-- The same value is read through firm paths that come to no new file. Each path on the way has
the same content, so that it leads on to the same path. -/
theorem Intact.follow (intact : Intact files after left) (closed : Closed files)
    (firm : Firm directory files path) (misses : Misses directory files after left path)
    (most : Nat) : follow directory after most path = follow directory files most path := by
  induction most generalizing path with
  | zero => rfl
  | succ most inductionHypothesis =>
    have same : content? after path = content? files path :=
      content?_kept intact.covers
        (fun place bytes found => intact.same place bytes (misses path (.here path) place found))
        fun present => intact.hasFile closed firm misses ▸ present
    rw [RefFiles.follow, RefFiles.follow, same]
    cases content : RefFiles.content? files path with
    | error failure => rfl
    | ok held =>
      cases held with
      | none => rfl
      | some held =>
        cases held with
        | direct id => rfl
        | symbolic next =>
          have points := content?_symbolic.mp content
          exact inductionHypothesis (firm.onward points) (misses.onward points)

/-- The same is read for a name that is looked for under firm paths that come to no new file. -/
theorem Intact.read {name : String} (intact : Intact files after left) (closed : Closed files)
    (clear : ∀ group ∈ [directory, refsPath directory, branchesPath directory],
      Firm directory files (group.join name) ∧
        Misses directory files after left (group.join name)) :
    read directory after name = read directory files name := by
  have clear : ∀ path ∈ [directory, refsPath directory, branchesPath directory].map (·.join name),
      Firm directory files path ∧ Misses directory files after left path :=
    List.forall_mem_map.mpr clear
  -- opened without its equation, which takes long to derive for its list of paths
  delta RefFiles.read
  generalize [directory, refsPath directory, branchesPath directory].map (·.join name) = paths
    at clear ⊢
  induction paths with
  | nil => rfl
  | cons path paths inductionHypothesis =>
    rw [List.forall_mem_cons] at clear
    obtain ⟨⟨firm, misses⟩, others⟩ := clear
    rw [List.find?_cons, List.find?_cons, intact.hasFile closed firm misses]
    cases files.hasFile path with
    | true => exact intact.follow closed firm misses (depthBound + 1)
    | false => exact inductionHypothesis others

/-- Where the spare file is found of the reference that was checked out. -/
def LeftAt (directory : Path) (files : FileSystem) (draw : UInt32) (after : FileSystem)
    (place : Location) : Prop :=
  ∃ last parent, current directory files = .ok last ∧
    (directory.join last.path).parent? = some parent ∧
      after.find (sparePath parent draw) = .ok place

/-- When what is checked out is moved, it is read as its new value, and no file but that of the
reference that was checked out is changed; that reference is still checked out, unless its path
steps up from a place where nothing was. -/
theorem of_updateHead (closed : Closed files)
    (spared : ∀ last, current directory files = .ok last →
      Spared files (directory.join last.path) draw)
    (moved : updateHead directory files id draw = (.ok (), after)) :
    readHead directory after = .ok (some id) ∧
      ∃ last target, current directory files = .ok last ∧
        after.find (directory.join last.path) = .ok target ∧
        (Grounded files [] (directory.join last.path).pieces →
          current directory after = .ok last) ∧
        ∀ place bytes, place ≠ target →
          (after.entry? place = some (.file bytes) ↔ files.entry? place = some (.file bytes)) := by
  rw [updateHead] at moved
  cases known : current directory files with
  | error failure =>
    rw [known] at moved
    cases moved
  | ok last =>
    rw [known] at moved
    obtain ⟨links, value, most, leads, stores⟩ := standsFor_iff.mp known
    obtain ⟨entry, here, wrote⟩ := wrote_of_write (spared last known) moved
    refine ⟨?_, last, entry :: here, rfl, wrote.found, fun grounded => ?_, fun place bytes apart =>
      wrote.file_iff apart⟩
    · obtain ⟨fewer, other, less, leads, stores⟩ := leads.after_write wrote
      exact readHead_iff.mpr ⟨fewer, other, less.trans most.le, leads, stores⟩
    · have stays := leads.kept fun _ _ points => wrote.points closed grounded stores points
      exact standsFor_iff.mpr
        ⟨links, some id, most, stays, stores_of_line wrote.found wrote.stands⟩

/-- A chain that stays is read as before, when the file in which it ends has the same content. -/
theorem Leads.read_same (leads : Leads directory files links .head last)
    (most : links < depthBound) (stores : Stores files (directory.join last.path) value)
    (stays : Leads directory after links .head last)
    (same : content? after (directory.join last.path) = content? files (directory.join last.path)) :
    readHead directory after = readHead directory files := by
  have later : Stores after (directory.join last.path) value := by
    rw [content?_stores.mpr stores] at same
    exact content?_stores.mp same
  exact (readHead_iff.mpr ⟨links, last, most.le, stays, later⟩).trans
    (readHead_iff.mpr ⟨links, last, most.le, leads, stores⟩).symm

/-- When what is checked out cannot be moved, no file is changed, and the only new one is the spare
file if it was left behind. What is checked out is read as before, unless its path steps up from a
place where nothing was and the path of the spare file is too long: otherwise the file that could
not be written is not found, neither before nor afterwards, and the spare file is not found under
its path, since it would have been moved there then. -/
theorem of_updateHead_failed (closed : Closed files)
    (spared : ∀ last, current directory files = .ok last →
      Spared files (directory.join last.path) draw)
    (failed : updateHead directory files id draw = (.error failure, after)) :
    Intact files after (LeftAt directory files draw after) ∧
      (∀ place bytes, files.entry? place = some (.file bytes) →
        after.entry? place = some (.file bytes)) ∧
      ((∀ last, current directory files = .ok last →
        Grounded files [] (directory.join last.path).pieces ∨
          Roomy (directory.join last.path) draw) →
          readHead directory after = readHead directory files) := by
  rw [updateHead] at failed
  cases known : current directory files with
  | error failure =>
    rw [known] at failed
    obtain rfl := (Prod.mk.inj failed).2
    exact ⟨intact_of_furnished (.refl files), fun _ _ stands => stands, fun _ => rfl⟩
  | ok last =>
    rw [known] at failed
    obtain ⟨links, value, most, leads, stores⟩ := standsFor_iff.mp known
    rcases of_failed_write failed with ⟨furnished, missing⟩ |
      ⟨parent, entry, here, up, wrote, refused, vacant⟩
    · refine ⟨intact_of_furnished furnished, fun _ _ => furnished.file_iff.mpr, fun clear => ?_⟩
      refine leads.read_same most stores (leads.kept fun _ _ points => points.furnish furnished) ?_
      refine content?_furnished furnished fun present => ?_
      rcases clear last rfl with grounded | room
      · exact furnished.covers.hasFile_back closed grounded
          (fun _ _ _ => furnished.file_iff.mp) present
      · rw [missing closed (spared last known) room] at present
        cases present
    · have vacant := vacant (spared last known)
      have apart : after.find (directory.join last.path) ≠ .ok (entry :: here) := fun found =>
        refused _ (filePlace_there (wrote.closed closed) found wrote.stands)
      refine ⟨⟨wrote.covers, fun place bytes elsewhere => wrote.file_iff ?_⟩,
        fun place bytes stood => (wrote.file_iff ?_).mpr stood, fun _ => ?_⟩
      · rintro rfl
        exact elsewhere ⟨last, parent, known, up, wrote.found⟩
      · rintro rfl
        rw [vacant] at stood
        cases stood
      · refine leads.read_same most stores
          (leads.kept fun _ _ points => wrote.points_vacant vacant points)
          (wrote.content? apart fun present => ?_)
        -- a file under the path would have a place for what is moved there
        obtain ⟨place, bytes, found, stands⟩ := hasFile_iff.mp present
        exact absurd (filePlace_there (wrote.closed closed) found stands) (refused place)

/-- What is checked out is moved or kept, where the name that is drawn for a spare file is free.
When moving succeeds, it is read as its new value, no file but that of the reference that was
checked out is changed, and the same reference is checked out unless its path steps up from a place
where nothing was. When moving fails, no file is changed, and the only new one is a spare file that
was left behind. What is checked out is read as before then, unless its path steps up from a place
where nothing was and the path of the spare file is too long; so is every branch and every name,
unless reading it steps up from such a place or comes to the spare file.

Proof: a write that succeeds changes one place, and the chain to it is still there unless a
directory that was made opens another way. A write that fails leaves all files that were read, so
that they have the same content where their paths still lead to them. -/
theorem head_moved_or_kept (closed : Closed files)
    (spared : ∀ last, current directory files = .ok last →
      Spared files (directory.join last.path) draw)
    {given : Except Failure Unit}
    (moved : updateHead directory files id draw = (given, after)) :
    (given = .ok () →
      readHead directory after = .ok (some id) ∧
      ∃ last target, current directory files = .ok last ∧
        after.find (directory.join last.path) = .ok target ∧
        (Grounded files [] (directory.join last.path).pieces →
          current directory after = .ok last) ∧
        ∀ place bytes, place ≠ target →
          (after.entry? place = some (.file bytes) ↔ files.entry? place = some (.file bytes))) ∧
    (given ≠ .ok () →
      (∀ place bytes, files.entry? place = some (.file bytes) →
        after.entry? place = some (.file bytes)) ∧
      (∀ place bytes, after.entry? place = some (.file bytes) →
        files.entry? place = some (.file bytes) ∨ LeftAt directory files draw after place) ∧
      ((∀ last, current directory files = .ok last →
        Grounded files [] (directory.join last.path).pieces ∨
          Roomy (directory.join last.path) draw) →
          readHead directory after = readHead directory files) ∧
      (∀ name : BranchName, Firm directory files ((branchesPath directory).join name.text) →
        Misses directory files after (LeftAt directory files draw after)
            ((branchesPath directory).join name.text) →
          readBranch directory after name = readBranch directory files name) ∧
      ∀ name, (∀ group ∈ [directory, refsPath directory, branchesPath directory],
          Firm directory files (group.join name) ∧
            Misses directory files after (LeftAt directory files draw after) (group.join name)) →
        read directory after name = read directory files name) := by
  cases given with
  | ok done => exact ⟨fun _ => of_updateHead closed spared moved, absurd rfl⟩
  | error failure =>
    obtain ⟨intact, kept, head⟩ := of_updateHead_failed closed spared moved
    refine ⟨fun done => (nomatch done), fun _ => ⟨kept, fun place bytes stands => ?_, head, ?_, ?_⟩⟩
    · rw [Classical.or_iff_not_imp_right]
      exact fun elsewhere => (intact.same place bytes elsewhere).mp stands
    · intro name firm misses
      exact intact.follow closed firm misses (depthBound + 1)
    · intro name clear
      exact intact.read closed clear

/-- Files in `/g` where HEAD leads to a file as if it were a directory. -/
def blocked : FileSystem :=
  (linked .zero "m" []).insert ["HEAD", "g"] (.file (Utf8.encode "ref: m/\n"))

/-- Moving HEAD gives the reference two links away its value. Where the reference cannot be written
it leaves a spare file behind, and the name `m` is read as before. -/
theorem head_moved_or_kept_linked :
    (∃ after, updateHead ⟨"/g"⟩ (linked .zero "HEAD" ["a", "b"]) .zero 7 = (.ok (), after) ∧
      readHead ⟨"/g"⟩ after = .ok (some .zero) ∧ current ⟨"/g"⟩ after = .ok ⟨"b"⟩) ∧
    (updateHead ⟨"/g"⟩ blocked .zero 7).1 ≠ .ok () ∧
      FileSystem.has (updateHead ⟨"/g"⟩ blocked .zero 7).2 ⟨"/g/tmp-ref-7"⟩ = true ∧
      readHead ⟨"/g"⟩ (updateHead ⟨"/g"⟩ blocked .zero 7).2 = .ok none ∧
      read ⟨"/g"⟩ (updateHead ⟨"/g"⟩ blocked .zero 7).2 "m" = .ok (some .zero) := by
  constructor
  · have known : current ⟨"/g"⟩ (linked .zero "HEAD" ["a", "b"]) = .ok ⟨"b"⟩ := by decide +kernel
    have done : (updateHead ⟨"/g"⟩ (linked .zero "HEAD" ["a", "b"]) .zero 7).1 = .ok () := by
      decide +kernel
    have whole : updateHead ⟨"/g"⟩ (linked .zero "HEAD" ["a", "b"]) .zero 7 =
        (.ok (), (updateHead ⟨"/g"⟩ (linked .zero "HEAD" ["a", "b"]) .zero 7).2) := by
      rw [← done, Prod.eta]
    have spared (last : RefName)
        (same : current ⟨"/g"⟩ (linked .zero "HEAD" ["a", "b"]) = .ok last) :
        Spared (linked .zero "HEAD" ["a", "b"]) (Path.join ⟨"/g"⟩ last.path) 7 := by
      obtain rfl := Except.ok.inj (same.symm.trans known)
      decide +kernel
    obtain ⟨succeeds, _⟩ := head_moved_or_kept (linked_closed _ _ _).1 spared whole
    obtain ⟨read, last, _, same, _, stays, _⟩ := succeeds rfl
    obtain rfl := Except.ok.inj (same.symm.trans known)
    refine ⟨_, whole, read, stays (grounded_of_onward _ _ ?_)⟩
    decide +kernel
  · have known : current ⟨"/g"⟩ blocked = .ok ⟨"m/"⟩ := by decide +kernel
    have refused : (updateHead ⟨"/g"⟩ blocked .zero 7).1 ≠ .ok () := by decide +kernel
    have spared (last : RefName) (same : current ⟨"/g"⟩ blocked = .ok last) :
        Spared blocked (Path.join ⟨"/g"⟩ last.path) 7 ∧ Roomy (Path.join ⟨"/g"⟩ last.path) 7 := by
      obtain rfl := Except.ok.inj (same.symm.trans known)
      decide +kernel
    obtain ⟨closed, inside, free⟩ := linked_closed .zero "m" []
    obtain ⟨_, fails⟩ := head_moved_or_kept (closed.insert inside (free "HEAD") _)
      (fun last same => (spared last same).1) (Prod.eta (updateHead ⟨"/g"⟩ blocked .zero 7)).symm
    obtain ⟨_, _, head, _, names⟩ := fails refused
    have left (place : Location) (standing : LeftAt ⟨"/g"⟩ blocked 7
        (updateHead ⟨"/g"⟩ blocked .zero 7).2 place) : place = ["tmp-ref-7", "g"] := by
      obtain ⟨last, parent, same, up, found⟩ := standing
      obtain rfl := Except.ok.inj (same.symm.trans known)
      obtain rfl := Option.some.inj (up.symm.trans (by decide +kernel : _ = some ⟨"/g"⟩))
      exact Except.ok.inj (found.symm.trans (by decide +kernel))
    have clear (path : Path) (value : Option ObjectId)
        (held : content? blocked path = .ok (value.map .direct)) (onward : ".." ∉ path.pieces)
        (apart : FileSystem.find (updateHead ⟨"/g"⟩ blocked .zero 7).2 path ≠
          .ok ["tmp-ref-7", "g"]) :
        Firm ⟨"/g"⟩ blocked path ∧ Misses ⟨"/g"⟩ blocked (updateHead ⟨"/g"⟩ blocked .zero 7).2
          (LeftAt ⟨"/g"⟩ blocked 7 (updateHead ⟨"/g"⟩ blocked .zero 7).2) path :=
      have stores := content?_stores.mp held
      ⟨firm_of_stores stores (grounded_of_onward _ _ onward),
        misses_of_stores stores fun place found standing => apart (left place standing ▸ found)⟩
    refine ⟨refused, by decide +kernel,
      (head fun last same => .inr (spared last same).2).trans (by decide +kernel),
      (names "m" ?_).trans (by decide +kernel)⟩
    rw [List.forall_mem_cons, List.forall_mem_cons, List.forall_mem_singleton]
    refine ⟨clear _ (some .zero) ?_ ?_ ?_, clear _ none ?_ ?_ ?_, clear _ none ?_ ?_ ?_⟩ <;>
      decide +kernel

/-- Files in `/g` where HEAD leads back to itself through a directory that is missing. -/
def risen : FileSystem :=
  (FileSystem.insert {} ["g"] .directory).insert ["HEAD", "g"]
    (.file (Utf8.encode "ref: none/../HEAD\n"))

/-- Files in `/g` where HEAD leads to no file, and `b` to one through a directory that is
missing. -/
def opened : FileSystem :=
  ((linked .zero "m" []).insert ["b", "g"] (.file (Utf8.encode "ref: none/../m\n"))).insert
    ["HEAD", "g"] (.file (Utf8.encode "ref: none/..\n"))

/-- Moving HEAD makes a directory that is missing, and paths that step up from it lead somewhere
then: another reference is checked out afterwards, or another one has a value although moving HEAD
failed. -/
theorem missing_directory_opens_paths :
    (current ⟨"/g"⟩ risen = .ok ⟨"none/../HEAD"⟩ ∧
      (updateHead ⟨"/g"⟩ risen .zero).1 = .ok () ∧
      current ⟨"/g"⟩ (updateHead ⟨"/g"⟩ risen .zero).2 = .ok .head) ∧
    read ⟨"/g"⟩ opened "b" = .ok none ∧ (updateHead ⟨"/g"⟩ opened .zero).1 ≠ .ok () ∧
      read ⟨"/g"⟩ (updateHead ⟨"/g"⟩ opened .zero).2 "b" = .ok (some .zero) := by
  decide +kernel

end Ancestry.RefFiles
