import Ancestry.Proofs.Reference.Writing

/-!
# Chains of references

A reference leads to another through a number of symbolic links. Reading what is checked out
follows five links at most; naming the reference that is checked out follows four. So whatever is
named can be read, and what can be read is named unless it is exactly five links away. A
reference that is named is the one that is moved, and reading gives the new value afterwards.
-/

namespace Ancestry.RefFiles

open FileSystem

/-- One reference leads to another through a number of symbolic links. -/
inductive Leads (directory : Path) (files : FileSystem) : Nat → RefName → RefName → Prop where
  | here (name : RefName) : Leads directory files 0 name name
  | link {links : Nat} {name next last : RefName}
      (points : Points files (directory.join name.path) next)
      (rest : Leads directory files links next last) : Leads directory files (links + 1) name last

variable {directory path : Path} {files after : FileSystem} {name next last other : RefName}
  {links more most : Nat} {value : Option ObjectId} {id : ObjectId} {failure : Failure}

/-- Whatever a file stores is its content. -/
theorem content?_stores : content? files path = .ok (value.map .direct) ↔
    Stores files path value := by
  cases value with
  | none => exact content?_none
  | some id => exact content?_direct

/-- A file is malformed, or stores something, or points to a reference. -/
theorem malformed_or (files : FileSystem) (path : Path) :
    (∃ failure, content? files path = .error failure) ∨ (∃ value, Stores files path value) ∨
      ∃ next, Points files path next := by
  cases content : content? files path with
  | error failure => exact .inl ⟨failure, rfl⟩
  | ok held =>
    refine .inr ?_
    cases held with
    | none => exact .inl ⟨none, content?_none.mp content⟩
    | some held =>
      cases held with
      | direct id => exact .inl ⟨some id, content?_direct.mp content⟩
      | symbolic next => exact .inr ⟨next, content?_symbolic.mp content⟩

/-- A file stores one thing. -/
theorem Stores.unique (stores : Stores files path value) {second : Option ObjectId}
    (others : Stores files path second) : value = second := by
  have same := (content?_stores.mpr stores).symm.trans (content?_stores.mpr others)
  exact Option.map_injective (fun _ _ => Content.direct.inj) (Except.ok.inj same)

/-- A file that stores something points to no reference. -/
theorem Stores.not_points (stores : Stores files path value) : ¬ Points files path next := by
  intro points
  have same := (content?_stores.mpr stores).symm.trans (content?_symbolic.mpr points)
  cases value <;> cases same

/-- A reference that stores something stands for itself. -/
theorem standsFor_stores (stores : Stores files (directory.join name.path) value) (most : Nat) :
    standsFor directory files (most + 1) name = .ok name := by
  rw [standsFor, content?_stores.mpr stores]
  cases value <;> rfl

/-- A reference that leads on stands for what the next one stands for. -/
theorem standsFor_points (points : Points files (directory.join name.path) next) (most : Nat) :
    standsFor directory files (most + 1) name = standsFor directory files most next := by
  rw [standsFor, content?_symbolic.mpr points]

/-- What a chain of fewer links than may be taken ends in is what a reference stands for. -/
theorem standsFor_iff : standsFor directory files most name = .ok last ↔
    ∃ links value, links < most ∧ Leads directory files links name last ∧
      Stores files (directory.join last.path) value := by
  constructor
  · intro named
    induction most generalizing name with
    | zero => cases named
    | succ most inductionHypothesis =>
      rcases malformed_or files (directory.join name.path) with
        ⟨failure, content⟩ | ⟨value, stores⟩ | ⟨next, points⟩
      · rw [standsFor, content] at named
        cases named
      · rw [standsFor_stores stores] at named
        obtain rfl := Except.ok.inj named
        exact ⟨0, value, Nat.succ_pos most, .here name, stores⟩
      · rw [standsFor_points points] at named
        obtain ⟨links, value, fewer, leads, stores⟩ := inductionHypothesis named
        exact ⟨links + 1, value, Nat.succ_lt_succ fewer, .link points leads, stores⟩
  · rintro ⟨links, value, fewer, leads, stores⟩
    induction leads generalizing most with
    | here name =>
      obtain ⟨less, rfl⟩ := Nat.exists_eq_succ_of_ne_zero (Nat.ne_of_gt fewer)
      exact standsFor_stores stores less
    | link points _ inductionHypothesis =>
      obtain ⟨less, rfl⟩ := Nat.exists_eq_succ_of_ne_zero (Nat.ne_of_gt (Nat.zero_lt_of_lt fewer))
      rw [standsFor_points points]
      exact inductionHypothesis (Nat.lt_of_succ_lt_succ fewer) stores

/-- What a file stores is read. -/
theorem follow_stores (stores : Stores files path value) (most : Nat) :
    follow directory files (most + 1) path = .ok value := by
  rw [follow, content?_stores.mpr stores]
  cases value <;> rfl

/-- Where a file points to a reference, that reference's file is read. -/
theorem follow_points (points : Points files path next) (most : Nat) :
    follow directory files (most + 1) path =
      follow directory files most (directory.join next.path) := by
  rw [follow, content?_symbolic.mpr points]

/-- With one bound for both, what is read is what is stored where a reference stands for. -/
theorem follow_iff : follow directory files most (directory.join name.path) = .ok value ↔
    ∃ last, standsFor directory files most name = .ok last ∧
      Stores files (directory.join last.path) value := by
  induction most generalizing name with
  | zero => simp [follow, standsFor]
  | succ most inductionHypothesis =>
    rcases malformed_or files (directory.join name.path) with
      ⟨failure, content⟩ | ⟨first, stores⟩ | ⟨next, points⟩
    · simp [follow, standsFor, content]
    · rw [follow_stores stores, standsFor_stores stores]
      constructor
      · intro same
        exact ⟨name, rfl, Except.ok.inj same ▸ stores⟩
      · rintro ⟨last, same, others⟩
        rw [stores.unique (Except.ok.inj same ▸ others)]
    · rw [follow_points points, standsFor_points points]
      exact inductionHypothesis

/-- A chain of as many links as may be taken is too long. -/
theorem Leads.too_deep (leads : Leads directory files links name last) :
    standsFor directory files links name =
      .error (.ofText "symbolic ref chain from HEAD is too deep") := by
  induction leads with
  | here => rfl
  | link points _ inductionHypothesis => rw [standsFor_points points, inductionHypothesis]

/-- What is checked out is read through as many links as the bound. -/
theorem readHead_iff : readHead directory files = .ok value ↔
    ∃ links last, links ≤ depthBound ∧ Leads directory files links .head last ∧
      Stores files (directory.join last.path) value := by
  change follow directory files (depthBound + 1) (directory.join RefName.head.path) = _ ↔ _
  rw [follow_iff]
  simp only [standsFor_iff, Nat.lt_succ_iff]
  constructor
  · rintro ⟨last, ⟨links, _, fewer, leads, _⟩, stores⟩
    exact ⟨links, last, fewer, leads, stores⟩
  · rintro ⟨links, last, fewer, leads, stores⟩
    exact ⟨last, ⟨links, value, fewer, leads, stores⟩, stores⟩

/-- After a reference was written, a chain to it leads to the new value, if not further on. -/
theorem Leads.after_write (leads : Leads directory files links name last) {entry : String}
    {here : Location}
    (wrote : Wrote files (directory.join last.path) (id.toHex ++ "\n") after entry here) :
    ∃ fewer other, fewer ≤ links ∧ Leads directory after fewer name other ∧
      Stores after (directory.join other.path) (some id) := by
  induction leads with
  | here name => exact ⟨0, name, Nat.le_refl 0, .here name, stores_of_line wrote.found wrote.stands⟩
  | link points _ inductionHypothesis =>
    rename_i name next last rest
    obtain ⟨present, ⟨text, read, spelled⟩, filled, oneLine⟩ := points
    obtain ⟨stays, same | other⟩ := wrote.kept present
    · obtain ⟨fewer, other, less, leads, stores⟩ := inductionHypothesis wrote
      exact ⟨fewer + 1, other, Nat.succ_le_succ less,
        .link ⟨stays, ⟨text, same.trans read, spelled⟩, filled, oneLine⟩ leads, stores⟩
    · -- the file that was written is this one, so that the chain ends here
      exact ⟨0, name, Nat.zero_le _, .here name, stays, _, other, by rw [trim_line, id.parse_toHex]⟩

/-- What is checked out can be read exactly when its reference can be named, or when it is as
many links away as may be taken at all. The value is what the named reference's file stores, and
the named reference is the one that is moved. Where the name that is drawn for a spare file is
free, moving succeeds whenever the reference's file is there and the spare file's path is not too
long, and whenever it succeeds the new value is read.

Proof: both readings follow one chain of links: naming stops where reading finds a value, one link
earlier at most. After the last file of the chain was written the chain is still there, or ends
earlier in that file. -/
theorem head_read_and_named (directory : Path) (files : FileSystem) :
    ((∃ value, readHead directory files = .ok value) ↔
      (∃ last, current directory files = .ok last) ∨
        ∃ last value, Leads directory files depthBound .head last ∧
          Stores files (directory.join last.path) value) ∧
    (∀ last value, Leads directory files depthBound .head last →
      Stores files (directory.join last.path) value →
        readHead directory files = .ok value ∧ current directory files =
          .error (.ofText "symbolic ref chain from HEAD is too deep")) ∧
    (∀ last, current directory files = .ok last →
      ∃ value, Stores files (directory.join last.path) value ∧
        readHead directory files = .ok value) ∧
    ∀ last id draw, current directory files = .ok last →
      updateHead directory files id draw = update directory files last id draw ∧
        (Spared files (directory.join last.path) draw →
          (Closed files → Roomy (directory.join last.path) draw →
            files.hasFile (directory.join last.path) = true →
              (updateHead directory files id draw).1 = .ok ()) ∧
          ∀ after, updateHead directory files id draw = (.ok (), after) →
            readHead directory after = .ok (some id)) := by
  have named (last : RefName) : current directory files = .ok last ↔ _ := standsFor_iff
  refine ⟨⟨?_, ?_⟩, fun last value leads stores => ⟨?_, leads.too_deep⟩, fun last known => ?_,
    fun last id draw known => ?_⟩
  · rintro ⟨value, read⟩
    obtain ⟨links, last, most, leads, stores⟩ := readHead_iff.mp read
    rcases Nat.lt_or_eq_of_le most with fewer | same
    · exact .inl ⟨last, (named last).mpr ⟨links, value, fewer, leads, stores⟩⟩
    · exact .inr ⟨last, value, same ▸ leads, stores⟩
  · rintro (⟨last, known⟩ | ⟨last, value, leads, stores⟩)
    · obtain ⟨links, value, fewer, leads, stores⟩ := (named last).mp known
      exact ⟨value, readHead_iff.mpr ⟨links, last, fewer.le, leads, stores⟩⟩
    · exact ⟨value, readHead_iff.mpr ⟨depthBound, last, Nat.le_refl _, leads, stores⟩⟩
  · exact readHead_iff.mpr ⟨depthBound, last, Nat.le_refl _, leads, stores⟩
  · obtain ⟨links, value, fewer, leads, stores⟩ := (named last).mp known
    exact ⟨value, stores, readHead_iff.mpr ⟨links, last, fewer.le, leads, stores⟩⟩
  · have moved : updateHead directory files id draw = update directory files last id draw := by
      rw [updateHead, known]
    refine ⟨moved, fun spared => ⟨fun closed room present => ?_, fun after written => ?_⟩⟩
    · rw [moved]
      exact write_there closed present spared room _
    obtain ⟨links, value, most, leads, _⟩ := (named last).mp known
    obtain ⟨entry, here, wrote⟩ := wrote_of_write spared (moved.symm.trans written)
    obtain ⟨fewer, other, less, leads, stores⟩ := leads.after_write wrote
    exact readHead_iff.mpr ⟨fewer, other, less.trans most.le, leads, stores⟩

/-- Files in a directory `/g` in which a reference leads to an identifier through others. -/
def linked (id : ObjectId) : (name : String) → List String → FileSystem
  | name, [] =>
    (FileSystem.insert {} ["g"] .directory).insert [name, "g"]
      (.file (Utf8.encode (id.toHex ++ "\n")))
  | name, next :: names =>
    (linked id next names).insert [name, "g"] (.file (Utf8.encode ("ref: " ++ next ++ "\n")))

/-- Those files stand in the directory, which is there. -/
theorem linked_closed (id : ObjectId) (name : String) (names : List String) :
    Closed (linked id name names) ∧
      FileSystem.entry? (linked id name names) ["g"] = some .directory ∧
      ∀ other, FileSystem.entry? (linked id name names) [other, "g"] ≠ some .directory := by
  have kept {files : FileSystem} {text : String} (name : String) (closed : Closed files)
      (inside : files.entry? ["g"] = some .directory)
      (free : ∀ other, files.entry? [other, "g"] ≠ some .directory) :
      Closed (files.insert [name, "g"] (.file (Utf8.encode text))) ∧
        FileSystem.entry? (files.insert [name, "g"] (.file (Utf8.encode text))) ["g"] =
          some .directory ∧
        ∀ other, FileSystem.entry? (files.insert [name, "g"] (.file (Utf8.encode text)))
          [other, "g"] ≠ some .directory := by
    refine ⟨closed.insert inside (free name) _, ?_, fun other => ?_⟩
    · rw [entry?_insert, if_neg (by simp), inside]
    · rw [entry?_insert]
      split
      · exact fun other => nomatch other
      · exact free other
  induction names generalizing name with
  | nil =>
    refine kept name (closed_single "g") ?_ fun other => ?_
    · rw [entry?_insert, if_pos rfl]
    · rw [entry?_insert, if_neg (by simp)]
      simp [entry?_cons]
  | cons next names inductionHypothesis =>
    obtain ⟨closed, inside, free⟩ := inductionHypothesis next
    exact kept name closed inside free

/-- Four links away the last reference is named, read and moved. -/
theorem four_links_moved :
    current ⟨"/g"⟩ (linked .zero "HEAD" ["a", "b", "c", "d"]) = .ok ⟨"d"⟩ ∧
      (∃ value, Stores (linked .zero "HEAD" ["a", "b", "c", "d"]) ⟨"/g/d"⟩ value ∧
        readHead ⟨"/g"⟩ (linked .zero "HEAD" ["a", "b", "c", "d"]) = .ok value) ∧
      Spared (linked .zero "HEAD" ["a", "b", "c", "d"]) ⟨"/g/d"⟩ 7 ∧ Roomy ⟨"/g/d"⟩ 7 ∧
      ∃ after, updateHead ⟨"/g"⟩ (linked .zero "HEAD" ["a", "b", "c", "d"])
          ⟨Vector.replicate 20 17⟩ 7 = (.ok (), after) ∧
        readHead ⟨"/g"⟩ after = .ok (some ⟨Vector.replicate 20 17⟩) := by
  have known : current ⟨"/g"⟩ (linked .zero "HEAD" ["a", "b", "c", "d"]) = .ok ⟨"d"⟩ := by
    decide +kernel
  have joined : Path.join ⟨"/g"⟩ "d" = ⟨"/g/d"⟩ := by decide +kernel
  have spared : Spared (linked .zero "HEAD" ["a", "b", "c", "d"]) ⟨"/g/d"⟩ 7 := by decide +kernel
  have room : Roomy ⟨"/g/d"⟩ 7 := by decide +kernel
  obtain ⟨_, _, read, moved⟩ :=
    head_read_and_named ⟨"/g"⟩ (linked .zero "HEAD" ["a", "b", "c", "d"])
  obtain ⟨_, there⟩ := moved ⟨"d"⟩ ⟨Vector.replicate 20 17⟩ 7 known
  rw [joined] at there
  obtain ⟨succeeds, readThen⟩ := there spared
  have done := succeeds (linked_closed _ _ _).1 room (by decide +kernel)
  have whole : updateHead ⟨"/g"⟩ (linked .zero "HEAD" ["a", "b", "c", "d"])
      ⟨Vector.replicate 20 17⟩ 7 = (.ok (), (updateHead ⟨"/g"⟩
        (linked .zero "HEAD" ["a", "b", "c", "d"]) ⟨Vector.replicate 20 17⟩ 7).2) := by
    rw [← done, Prod.eta]
  exact ⟨known, joined ▸ read _ known, spared, room, _, whole, readThen _ whole⟩

/-- Five links away a reference is read, and neither named nor moved. -/
theorem five_links_unnamed :
    readHead ⟨"/g"⟩ (linked .zero "HEAD" ["a", "b", "c", "d", "e"]) = .ok (some .zero) ∧
      (¬ ∃ last, current ⟨"/g"⟩ (linked .zero "HEAD" ["a", "b", "c", "d", "e"]) = .ok last) ∧
        (updateHead ⟨"/g"⟩ (linked .zero "HEAD" ["a", "b", "c", "d", "e"]) .zero).1 ≠ .ok () := by
  have unnamed : (current ⟨"/g"⟩ (linked .zero "HEAD" ["a", "b", "c", "d", "e"])).toOption =
      none := by
    decide +kernel
  refine ⟨by decide +kernel, ?_, by decide +kernel⟩
  rintro ⟨last, known⟩
  rw [known] at unnamed
  cases unnamed

end Ancestry.RefFiles
