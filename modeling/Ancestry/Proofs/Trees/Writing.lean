import Ancestry.Object.Tree
import Ancestry.Proofs.Text.Cutting
import Ancestry.Proofs.Text.Hexadecimal
import Ancestry.Proofs.Text.Numbers
import Ancestry.Proofs.Text.Order

/-!
# Trees read as they are written

An entry is read from its bytes whatever follows them: the digits of a mode hold no space, a
name ends at the zero byte behind it, and an identifier has twenty bytes. So the entries of a
payload are read one after the other, in the order in which they are written, which is not the
order of their names; the tree that comes of it is the same.
-/

namespace Ancestry

/-- The octal digits of a mode are read as the mode. -/
theorem EntryMode.parse_octal (mode : EntryMode) : parse mode.octal = .ok mode := by
  have inside : mode.toNat ≤ Nat.pow 2 32 - 1 := by cases mode <;> decide
  have read := Text.readNat_toDigits (by decide : 1 < 8) (by decide) inside
  rw [parse, octal, Text.digits, String.toList_ofList, read]
  simp only [ofNat?_toNat]

/-- The octal digits of a mode hold no space. -/
theorem EntryMode.space_not_mem_octal (mode : EntryMode) :
    (0x20 : UInt8) ∉ Utf8.encode mode.octal := by
  intro member
  have space := Utf8.char_of_mem_encode (by decide) member
  rw [octal, Text.digits, String.toList_ofList] at space
  exact absurd (Nat.isDigit_of_mem_toDigits (by decide) (by decide) space) (by decide)

namespace Tree

variable {name : String} {entry : TreeEntry} {entries left right : TreeEntries}
  {list : List (String × TreeEntry)}

/-- The mode of an entry is read from its bytes. -/
theorem readMode_written (mode : EntryMode) (rest : Bytes) :
    readMode (Utf8.encode mode.octal ++ 0x20 :: rest) = .ok (mode, rest) := by
  rw [readMode, Pieces.cutFirst_append mode.space_not_mem_octal]
  simp only [Utf8.decode_encode, EntryMode.parse_octal]

/-- An entry is read from its bytes, whatever follows them. -/
theorem readEntry_written (plain : '\x00' ∉ name.toList) (entry : TreeEntry) (rest : Bytes) :
    readEntry (entryBytes name entry ++ rest) = .ok ((name, entry), rest) := by
  have form : entryBytes name entry ++ rest = Utf8.encode entry.mode.octal ++
      0x20 :: (Utf8.encode name ++ 0 :: (entry.id.toBytes ++ rest)) := by
    have space : Utf8.encode " " = [0x20] := by decide
    rw [entryBytes, Utf8.encode_append, Utf8.encode_append, space]
    simp
  have unended : (0 : UInt8) ∉ Utf8.encode name := fun member =>
    plain (Utf8.char_of_mem_encode (by decide) member)
  have sized : entry.id.toBytes.length = 20 := by simp [ObjectId.toBytes]
  rw [form, readEntry, readMode_written]
  simp only
  rw [Pieces.cutFirst_append unended]
  simp only
  rw [List.take_left' sized, List.drop_left' sized, ObjectId.ofBytes?_toBytes]
  simp only [Utf8.decodeLossy_encode]

/-- The bytes of some entries one after the other. -/
def written (list : List (String × TreeEntry)) : Bytes :=
  list.flatMap fun (name, entry) => entryBytes name entry

/-- Entries are written one behind the other. -/
theorem written_cons (name : String) (entry : TreeEntry) (list : List (String × TreeEntry)) :
    written ((name, entry) :: list) = entryBytes name entry ++ written list := rfl

/-- Written entries are read one after the other. -/
theorem readEntries_written (plain : ∀ pair ∈ list, '\x00' ∉ pair.1.toList) {most : Nat}
    (enough : (written list).length ≤ most) (entries : TreeEntries) :
    readEntries most (written list) entries = .ok (entries.insertMany list) := by
  induction list generalizing most entries with
  | nil => cases most <;> rfl
  | cons pair list inductionHypothesis =>
    obtain ⟨name, entry⟩ := pair
    obtain ⟨first, others⟩ := List.forall_mem_cons.mp plain
    have read := readEntry_written first entry (written list)
    rw [written_cons] at enough ⊢
    cases bytes : entryBytes name entry with
    | nil => simp [entryBytes] at bytes
    | cons byte more =>
      rw [bytes, List.length_append, List.length_cons] at enough
      rw [bytes, List.cons_append] at read
      cases most with
      | zero => omega
      | succ most =>
        rw [List.cons_append, readEntries, read]
        · simp only
          rw [inductionHypothesis others (by omega), Std.TreeMap.insertMany_cons]
        · simp

/-- Of entries with different names each is found in the tree to which they are added. -/
theorem getElem?_insertMany (distinct : list.Pairwise fun first second => first.1 ≠ second.1)
    (name : String) (entry : TreeEntry) :
    ((∅ : TreeEntries).insertMany list)[name]? = some entry ↔ (name, entry) ∈ list := by
  have apart : list.Pairwise fun first second => ¬ compare first.1 second.1 = .eq :=
    distinct.imp fun {_ _} differ same => differ (Std.LawfulEqCmp.compare_eq_iff_eq.mp same)
  have found {other : TreeEntry} (member : (name, other) ∈ list) :
      ((∅ : TreeEntries).insertMany list)[name]? = some other :=
    Std.TreeMap.getElem?_insertMany_list_of_mem Std.ReflCmp.compare_self apart member
  constructor
  · intro present
    by_cases named : name ∈ list.map Prod.fst
    · obtain ⟨⟨_, other⟩, member, rfl⟩ := List.mem_map.mp named
      obtain rfl := Option.some.inj ((found member).symm.trans present)
      exact member
    · have absent : (list.map Prod.fst).contains name = false := by
        rw [List.contains_eq_mem, decide_eq_false_iff_not]
        exact named
      rw [Std.TreeMap.getElem?_insertMany_list_of_contains_eq_false absent,
        Std.TreeMap.getElem?_emptyc] at present
      cases present
  · exact found

/-- Different entries have different names. -/
theorem names_distinct (entries : TreeEntries) :
    entries.toList.Pairwise fun first second => first.1 ≠ second.1 :=
  Std.TreeMap.distinct_keys_toList.imp fun {_ _} differ same =>
    differ (Std.LawfulEqCmp.compare_eq_iff_eq.mpr same)

/-- No name holds the zero byte that ends it in a payload. -/
def Writable (entries : TreeEntries) : Prop := ∀ name ∈ entries, '\x00' ∉ name.toList

/-- No name holds a slash. -/
def Flat (entries : TreeEntries) : Prop := ∀ name ∈ entries, '/' ∉ name.toList

/-- The entries are written each once, in another order. -/
theorem writtenOrder_perm (entries : TreeEntries) :
    (writtenOrder entries).Perm entries.toList := List.mergeSort_perm _ _

/-- What is written has the names of the tree. -/
theorem mem_of_mem_writtenOrder {pair : String × TreeEntry} (member : pair ∈ writtenOrder entries) :
    pair.1 ∈ entries := by
  have found := Std.TreeMap.mem_toList_iff_getElem?_eq_some.mp
    ((writtenOrder_perm entries).mem_iff.mp member)
  exact Std.TreeMap.isSome_getElem?_iff_mem.mp (by rw [found]; rfl)

/-- No two of the written entries have one name. -/
theorem writtenOrder_distinct (entries : TreeEntries) :
    (writtenOrder entries).Pairwise fun first second => first.1 ≠ second.1 :=
  ((writtenOrder_perm entries).pairwise_iff fun differ => Ne.symm differ).mpr
    (names_distinct entries)

/-- A tree is read from its payload. -/
theorem parse_payload (writable : Writable entries) :
    ∃ read, parse (payload entries) = .ok read ∧ ∀ name : String, read[name]? = entries[name]? := by
  refine ⟨_, readEntries_written (fun _ member => writable _ (mem_of_mem_writtenOrder member))
    (Nat.le_refl _) ∅, fun name => Option.ext fun entry => ?_⟩
  rw [getElem?_insertMany (writtenOrder_distinct entries), (writtenOrder_perm entries).mem_iff,
    Std.TreeMap.mem_toList_iff_getElem?_eq_some]

/-- Trees with the same entries have the same payload. -/
theorem payload_congr (same : ∀ name : String, left[name]? = right[name]?) :
    payload left = payload right := by
  have once (entries : TreeEntries) : entries.toList.Nodup :=
    (names_distinct entries).imp fun {_ _} differ same => differ (congrArg Prod.fst same)
  have listed : left.toList.Perm right.toList := by
    refine (List.perm_ext_iff_of_nodup (once left) (once right)).mpr fun (name, entry) => ?_
    rw [Std.TreeMap.mem_toList_iff_getElem?_eq_some, Std.TreeMap.mem_toList_iff_getElem?_eq_some,
      same]
  have equal : left.toList = right.toList :=
    (Std.TreeMap.equiv_iff_toList_perm.mpr listed).toList_eq
  rw [payload, payload, writtenOrder, writtenOrder, equal]

/-- Names without slashes can be told from the names under which they are sorted. -/
theorem sortName_injective {other : String} {otherEntry : TreeEntry} (plain : '/' ∉ name.toList)
    (otherPlain : '/' ∉ other.toList) (same : sortName name entry = sortName other otherEntry) :
    name = other := by
  have slashed (text : String) : '/' ∈ (text ++ "/").toList := by simp
  simp only [sortName] at same
  split at same
  · split at same
    · exact (String.append_left_inj "/").mp same
    · exact absurd (same ▸ slashed name) otherPlain
  · split at same
    · exact absurd (same ▸ slashed other) plain
    · exact same

/-- Entries without slashes in their names are written in strict order. -/
theorem writtenOrder_ordered (flat : Flat entries) :
    (writtenOrder entries).Pairwise fun earlier later =>
      Utf8.encode (sortName earlier.1 earlier.2) < Utf8.encode (sortName later.1 later.2) := by
  have sorted : (writtenOrder entries).Pairwise fun earlier later =>
      (compare (sortName earlier.1 earlier.2) (sortName later.1 later.2)).isLE := by
    refine List.pairwise_mergeSort (fun _ _ _ => Std.TransCmp.isLE_trans) (fun first second => ?_) _
    have swapped : compare (sortName second.1 second.2) (sortName first.1 first.2) =
        (compare (sortName first.1 first.2) (sortName second.1 second.2)).swap :=
      Std.OrientedCmp.eq_swap
    rw [swapped]
    cases compare (sortName first.1 first.2) (sortName second.1 second.2) <;> rfl
  refine (sorted.and (writtenOrder_distinct entries)).imp_of_mem
    fun {earlier later} first last ⟨ordered, differ⟩ => ?_
  rcases Ordering.isLE_iff_eq_lt_or_eq_eq.mp ordered with less | equal
  · exact Utf8.encode_lt (compareOfLessAndEq_eq_lt.mp less)
  · have same := Std.LawfulEqCmp.compare_eq_iff_eq.mp equal
    exact absurd (sortName_injective (flat _ (mem_of_mem_writtenOrder first))
      (flat _ (mem_of_mem_writtenOrder last)) same) differ

/-- The tree to which entries were added one after the other, where a later entry takes the place
of an earlier one of its name. -/
def adding (list : List (String × TreeEntry)) : TreeEntries :=
  list.foldl (fun entries (name, entry) => entries.insert name entry) ∅

/-- Entries with different names may be added in any order. -/
theorem adding_perm {first second : List (String × TreeEntry)}
    (distinct : (first.map Prod.fst).Nodup) (perm : first.Perm second) (name : String) :
    (adding first)[name]? = (adding second)[name]? := by
  have added (list : List (String × TreeEntry)) :
      (adding list)[name]? = ((∅ : TreeEntries).insertMany list)[name]? :=
    (Std.TreeMap.insertMany_list_equiv_foldl.getElem?_eq).symm
  have apart : first.Pairwise fun first second => first.1 ≠ second.1 :=
    List.pairwise_map.mp distinct
  have otherApart := (perm.pairwise_iff fun differ => Ne.symm differ).mp apart
  rw [added, added]
  refine Option.ext fun entry => ?_
  rw [getElem?_insertMany apart, getElem?_insertMany otherApart, perm.mem_iff]

/-- The names of a tree are those that were added. -/
theorem mem_of_mem_adding (member : name ∈ adding list) : name ∈ list.map Prod.fst := by
  have added : name ∈ (∅ : TreeEntries).insertMany list :=
    Std.TreeMap.insertMany_list_equiv_foldl.mem_iff.mpr member
  rcases Std.TreeMap.mem_insertMany_list.mp added with none | named
  · exact absurd none Std.TreeMap.not_mem_emptyc
  · exact List.contains_iff_mem.mp named

/-- A stored form tells the payload. -/
theorem payload_of_frame (same : (toObject left).frame = (toObject right).frame) :
    payload left = payload right := by
  have unended (size : Nat) :
      (0 : UInt8) ∉ Utf8.encode (Kind.tree.name ++ " " ++ Text.digits 10 size) := by
    intro member
    have zero := Utf8.char_of_mem_encode (by decide) member
    rw [String.toList_append, Text.digits, String.toList_ofList] at zero
    rcases List.mem_append.mp zero with word | digit
    · exact absurd word (by decide)
    · exact absurd (Nat.isDigit_of_mem_toDigits (by decide) (by decide) digit) (by decide)
  have cut (entries : TreeEntries) :
      (Pieces.cutFirst 0 (toObject entries).frame).2 = some (payload entries) := by
    rw [Object.frame, Object.headerBytes, List.append_assoc, List.singleton_append, toObject,
      Pieces.cutFirst_append (unended _)]
  rw [← Option.some_inj, ← cut left, ← cut right, same]

/-- A tree is read back from its payload. The payload depends on the entries alone and not on the
order in which they were added; they are written in the order of the bytes of their names, where
the name of a directory ends in a slash. So trees have the same bytes exactly when they have the
same entries.

Proof: entries are written one behind the other, each with its end, so that they are read back one
by one. The order of the written entries is determined by their names, and by nothing else. -/
theorem payload_faithful :
    (∀ entries, Writable entries → ∃ read, parse (payload entries) = .ok read ∧
      ∀ name : String, read[name]? = entries[name]?) ∧
    (∀ left right : TreeEntries, (∀ name : String, left[name]? = right[name]?) →
      payload left = payload right) ∧
    (∀ first second, (first.map Prod.fst).Nodup → first.Perm second →
      payload (adding first) = payload (adding second)) ∧
    (∀ entries, Flat entries → ∃ list, list.Perm entries.toList ∧ payload entries = written list ∧
      list.Pairwise fun earlier later =>
        Utf8.encode (sortName earlier.1 earlier.2) < Utf8.encode (sortName later.1 later.2)) ∧
    ∀ left right, Writable left → Writable right →
      (((toObject left).frame = (toObject right).frame ↔ payload left = payload right) ∧
        (payload left = payload right ↔ ∀ name : String, left[name]? = right[name]?)) := by
  refine ⟨fun _ => parse_payload, fun _ _ => payload_congr,
    fun first second distinct perm => payload_congr (adding_perm distinct perm),
    fun entries flat => ?_, fun left right one other => ?_⟩
  · exact ⟨writtenOrder entries, writtenOrder_perm entries, rfl, writtenOrder_ordered flat⟩
  · refine ⟨⟨payload_of_frame, fun same => ?_⟩, fun same name => ?_, payload_congr⟩
    · rw [toObject, toObject, same]
    · obtain ⟨read, parsed, found⟩ := parse_payload one
      obtain ⟨again, parsedAgain, foundAgain⟩ := parse_payload other
      rw [same, parsedAgain] at parsed
      rw [← found, ← foundAgain, Except.ok.inj parsed]

/-- A directory and a file whose name comes after the directory's and is written before it. -/
def dotted : List (String × TreeEntry) :=
  [("a", ⟨.zero, .directory⟩), ("a.b c", ⟨.zero, .executable⟩)]

/-- Two entries that are added in either order, a directory and a file that is written before it. -/
theorem payload_faithful_dotted :
    (dotted.map Prod.fst).Nodup ∧ Writable (adding dotted) ∧ Flat (adding dotted) ∧
      payload (adding dotted) = payload (adding dotted.reverse) ∧
      (∃ read, parse (payload (adding dotted)) = .ok read ∧
        ∀ name : String, read[name]? = (adding dotted)[name]?) ∧
      (∃ list, list.Perm (adding dotted).toList ∧ payload (adding dotted) = written list ∧
        list.Pairwise fun earlier later =>
          Utf8.encode (sortName earlier.1 earlier.2) < Utf8.encode (sortName later.1 later.2)) ∧
      ((toObject (adding dotted)).frame = (toObject (adding dotted.reverse)).frame ↔
        payload (adding dotted) = payload (adding dotted.reverse)) := by
  have distinct : (dotted.map Prod.fst).Nodup := by decide
  have plain (list : List (String × TreeEntry))
      (free : ∀ name ∈ list.map Prod.fst, '\x00' ∉ name.toList) : Writable (adding list) :=
    fun name member => free name (mem_of_mem_adding member)
  have writable : Writable (adding dotted) := plain dotted (by decide)
  have otherWritable : Writable (adding dotted.reverse) := plain dotted.reverse (by decide)
  have whole : ∀ name ∈ dotted.map Prod.fst, '/' ∉ name.toList := by decide
  have flat : Flat (adding dotted) := fun name member => whole name (mem_of_mem_adding member)
  obtain ⟨recovers, _, order, sorted, tells⟩ := payload_faithful
  exact ⟨distinct, writable, flat, order _ _ distinct dotted.reverse_perm.symm,
    recovers _ writable, sorted _ flat, (tells _ _ writable otherWritable).1⟩

end Tree

end Ancestry
