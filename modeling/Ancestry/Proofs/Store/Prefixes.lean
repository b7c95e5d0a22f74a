import Ancestry.Proofs.Store.Mirroring
import Mathlib.Data.List.Nodup

/-!
# Identifiers found by their first digits

The groups in which identifiers are looked for are those of all identifiers that begin with the
digits, each once. In files that mirror a memory the names of a group give the identifiers of
this group, so that the files are searched with the same result as the memory.
-/

namespace Ancestry

namespace ObjectId

variable {id : ObjectId} {c : Char}

/-- The two digits of a byte. -/
def digitsOf (byte : Nat) : String := String.ofList [hexDigit (byte / 16), hexDigit (byte % 16)]

/-- Different bytes have different digits. -/
theorem digitsOf_injective {byte other : Nat} (below : byte < 256) (otherBelow : other < 256)
    (same : digitsOf byte = digitsOf other) : byte = other := by
  have chars := String.ofList_injective same
  simp only [List.cons.injEq, and_true] at chars
  have high := congrArg hexValue? chars.1
  have low := congrArg hexValue? chars.2
  rw [hexValue?_hexDigit (by omega), hexValue?_hexDigit (by omega), Option.some.injEq] at high low
  omega

/-- The group of an identifier is its first byte. -/
theorem exists_byte (id : ObjectId) : ∃ byte < 256, id.loosePath.1 = digitsOf byte := by
  cases bytes : id.toBytes with
  | nil =>
    have length := congrArg List.length bytes
    simp [toBytes] at length
  | cons byte rest =>
    refine ⟨byte.toNat, byte.toNat_lt, ?_⟩
    rw [loosePath, hexChars, bytes]
    rfl

/-- Every byte is the group of an identifier. -/
theorem exists_id {byte : Nat} (below : byte < 256) :
    ∃ id : ObjectId, id.loosePath.1 = digitsOf byte := by
  refine ⟨⟨Vector.replicate 20 (UInt8.ofNat byte)⟩, ?_⟩
  have bytes : (ObjectId.mk (Vector.replicate 20 (UInt8.ofNat byte))).toBytes =
      UInt8.ofNat byte :: List.replicate 19 (UInt8.ofNat byte) := rfl
  have same : (UInt8.ofNat byte).toNat = byte := UInt8.toNat_ofNat_of_lt' below
  have digits : hexOfBytes (UInt8.ofNat byte :: List.replicate 19 (UInt8.ofNat byte)) =
      hexDigit (byte / 16) :: hexDigit (byte % 16) ::
        hexOfBytes (List.replicate 19 (UInt8.ofNat byte)) := by
    rw [hexOfBytes, List.flatMap_cons, same]
    rfl
  rw [loosePath, hexChars, bytes, digits]
  rfl

/-- What holds of the digits among the first characters holds of every digit. -/
theorem of_isHex (property : Char → Prop) (hex : isHex c = true)
    (each : ∀ code < 103, isHex (Char.ofNat code) = true → property (Char.ofNat code)) :
    property c := by
  have small : c.toNat < 103 := by
    have bound {last : Char} (most : c ≤ last) (code : last.toNat < 103) : c.toNat < 103 :=
      Nat.lt_of_le_of_lt (UInt32.le_iff_toNat_le.mp most) code
    have digit := hex
    rw [isHex, hexValue?] at digit
    split at digit
    · rename_i decimal
      exact bound decimal.2 (by decide)
    · split at digit
      · rename_i lower
        exact bound lower.2 (by decide)
      · split at digit
        · rename_i upper
          exact bound upper.2 (by decide)
        · cases digit
  have found := each c.toNat small
  rw [Char.ofNat_toNat] at found
  exact found hex

/-- A digit of either case is in lower case the digit of a number below sixteen. -/
theorem toLower_of_isHex (hex : isHex c = true) : ∃ value < 16, c.toLower = hexDigit value :=
  of_isHex (fun c => ∃ value < 16, c.toLower = hexDigit value) hex (by decide)

/-- Identifiers in order are not repeated. -/
theorem nodup_of_ascending {ids : List ObjectId}
    (ascending : ids.Pairwise fun first second => compare first second = .lt) : ids.Nodup :=
  ascending.imp fun {first second} less same => by
    have equal : compare first second = .eq := Std.LawfulEqCmp.compare_eq_iff_eq.mpr same
    rw [equal] at less
    cases less

end ObjectId

namespace LooseStore

open FileSystem

/-- A text of hexadecimal digits in either case. -/
def Hexadecimal (text : String) : Prop := ∀ c ∈ text.toList, ObjectId.isHex c = true

/-- A text is lowered character by character. -/
theorem toList_toLower (text : String) : text.toLower.toList = text.toList.map Char.toLower :=
  String.toList_map

/-- All groups are searched for less than two digits, and the group of the first two for more. -/
theorem groups_cases {text : String} (hex : Hexadecimal text) :
    groups text.toLower = (List.range 256).map ObjectId.digitsOf ∨
      ∃ byte < 256, (ObjectId.digitsOf byte).toList <+: text.toLower.toList ∧
        groups text.toLower = [ObjectId.digitsOf byte] := by
  have lower : ∀ c ∈ text.toLower.toList, ∃ value < 16, c = ObjectId.hexDigit value := by
    rw [toList_toLower]
    intro c member
    obtain ⟨written, inside, rfl⟩ := List.mem_map.mp member
    exact ObjectId.toLower_of_isHex (hex written inside)
  match chars : text.toLower.toList with
  | [] => exact .inl (by rw [groups, chars]; rfl)
  | [_] => exact .inl (by rw [groups, chars]; rfl)
  | first :: second :: rest =>
    rw [chars] at lower
    obtain ⟨high, highBelow, rfl⟩ := lower first List.mem_cons_self
    obtain ⟨low, lowBelow, rfl⟩ := lower second (List.mem_cons_of_mem _ List.mem_cons_self)
    have digits : ObjectId.digitsOf (high * 16 + low) =
        String.ofList [ObjectId.hexDigit high, ObjectId.hexDigit low] := by
      rw [ObjectId.digitsOf, show (high * 16 + low) / 16 = high by omega,
        show (high * 16 + low) % 16 = low by omega]
    refine .inr ⟨high * 16 + low, by omega, ?_, ?_⟩
    · rw [digits, String.toList_ofList]
      exact ⟨rest, rfl⟩
    · rw [groups, chars, digits]

/-- The groups that are searched are those of identifiers, each once. -/
theorem groups_nodup {text : String} (hex : Hexadecimal text) :
    (groups text.toLower).Nodup ∧
      ∀ group ∈ groups text.toLower, ∃ id : ObjectId, id.loosePath.1 = group := by
  rcases groups_cases hex with all | ⟨byte, below, _, single⟩
  · rw [all]
    refine ⟨List.nodup_range.map_on fun byte member other otherMember same => ?_, ?_⟩
    · exact ObjectId.digitsOf_injective (List.mem_range.mp member) (List.mem_range.mp otherMember)
        same
    · intro group member
      obtain ⟨byte, inside, rfl⟩ := List.mem_map.mp member
      exact ObjectId.exists_id (List.mem_range.mp inside)
  · rw [single]
    refine ⟨List.nodup_singleton _, fun group member => ?_⟩
    obtain rfl := List.mem_singleton.mp member
    exact ObjectId.exists_id below

/-- The group of every identifier that begins with the digits is searched. -/
theorem group_searched {text : String} (hex : Hexadecimal text) {id : ObjectId}
    (begins : text.toLower.toList <+: id.hexChars) : id.loosePath.1 ∈ groups text.toLower := by
  rcases groups_cases hex with all | ⟨byte, _, digits, single⟩
  · obtain ⟨byte, below, same⟩ := id.exists_byte
    rw [all, same]
    exact List.mem_map_of_mem (List.mem_range.mpr below)
  · have two : (ObjectId.digitsOf byte).toList.length = 2 := by simp [ObjectId.digitsOf]
    have group : id.loosePath.1 = ObjectId.digitsOf byte := by
      rw [← String.toList_inj, List.prefix_iff_eq_take.mp (digits.trans begins), two,
        ObjectId.loosePath, String.toList_ofList]
    rw [single, group]
    exact List.mem_singleton_self _

variable {directory : Path} {stem : String} {root : Location} {memory : MemoryStore}
  {files : FileSystem}

/-- What is found in a group: the identifiers that its names give and that begin with the
digits. -/
def found (files : FileSystem) (root : Location) (digits group : String) : List ObjectId :=
  (files.names (group :: root)).filterMap fun name =>
    if digits.toList.isPrefixOf (group ++ name).toList then
      (ObjectId.parse (group ++ name)).toOption
    else none

/-- The names in a directory are those under which something stands. -/
theorem mem_names {name : String} {here : Location} :
    name ∈ files.names here ↔ (files.entry? (name :: here)).isSome := by
  rw [names, List.mem_filterMap]
  constructor
  · rintro ⟨place, key, same⟩
    cases place with
    | nil => cases same
    | cons first parents =>
      simp only [Option.ite_none_right_eq_some, Option.some.injEq] at same
      obtain ⟨rfl, rfl⟩ := same
      rw [entry?_cons, ← Std.TreeMap.contains_eq_isSome_getElem?, Std.TreeMap.contains_iff_mem]
      exact Std.TreeMap.mem_keys.mp key
  · intro present
    rw [entry?_cons, ← Std.TreeMap.contains_eq_isSome_getElem?, Std.TreeMap.contains_iff_mem]
      at present
    exact ⟨name :: here, Std.TreeMap.mem_keys.mpr present, if_pos rfl⟩

/-- No name stands twice in a directory. -/
theorem names_nodup (files : FileSystem) (here : Location) : (files.names here).Nodup := by
  refine Std.TreeMap.nodup_keys.filterMap fun place other name same otherSame => ?_
  cases place with
  | nil => cases same
  | cons first parents =>
    cases other with
    | nil => cases otherSame
    | cons next above =>
      simp only [Option.mem_def, Option.ite_none_right_eq_some, Option.some.injEq] at same otherSame
      rw [same.1, same.2, otherSame.1, otherSame.2]

/-- The names of an identifier give it when it begins with the digits. -/
theorem given_name (digits : String) (id : ObjectId) :
    (if digits.toList.isPrefixOf (id.loosePath.1 ++ id.loosePath.2).toList then
      (ObjectId.parse (id.loosePath.1 ++ id.loosePath.2)).toOption else none) =
      if digits.toList <+: id.hexChars then some id else none := by
  have written : id.loosePath.1 ++ id.loosePath.2 = id.toHex := by
    rw [← String.toList_inj, String.toList_append, ObjectId.loosePath_chars, ObjectId.toHex,
      String.toList_ofList]
  rw [written, ObjectId.parse_toHex, ObjectId.toHex, String.toList_ofList]
  simp only [List.isPrefixOf_iff_prefix]
  rfl

/-- A name in a group of files that mirror a memory is that of an identifier in memory. -/
theorem Mirrors.exists_named (mirrors : Mirrors stem root memory files) {group name : String}
    (member : name ∈ files.names (group :: root)) :
    ∃ id : ObjectId,
      memory.contains id = true ∧ id.loosePath.1 = group ∧ id.loosePath.2 = name := by
  obtain ⟨id, held, path⟩ := mirrors.only name group (mem_names.mp member)
  exact ⟨id, held, congrArg Prod.fst path, congrArg Prod.snd path⟩

/-- What is found in a group of files that mirror a memory. -/
theorem Mirrors.mem_found (mirrors : Mirrors stem root memory files) {digits group : String}
    {id : ObjectId} :
    id ∈ found files root digits group ↔
      memory.contains id = true ∧ id.loosePath.1 = group ∧ digits.toList <+: id.hexChars := by
  rw [found, List.mem_filterMap]
  constructor
  · rintro ⟨name, member, same⟩
    obtain ⟨other, held, rfl, rfl⟩ := mirrors.exists_named member
    rw [given_name, Option.ite_none_right_eq_some, Option.some.injEq] at same
    obtain ⟨begins, rfl⟩ := same
    exact ⟨held, rfl, begins⟩
  · rintro ⟨held, rfl, begins⟩
    refine ⟨id.loosePath.2, mem_names.mpr ?_, ?_⟩
    · rw [(mirrors.kept id).isSome, ← contains_iff, held]
    · rw [given_name, if_pos begins]

/-- An identifier is found once in a group. -/
theorem Mirrors.found_nodup (mirrors : Mirrors stem root memory files) (digits group : String) :
    (found files root digits group).Nodup := by
  rw [found, List.Nodup, List.pairwise_filterMap]
  refine (names_nodup files (group :: root)).imp_of_mem ?_
  intro name other member otherMember apart id same otherId otherSame
  obtain ⟨first, _, rfl, rfl⟩ := mirrors.exists_named member
  obtain ⟨second, _, group, rfl⟩ := mirrors.exists_named otherMember
  rw [given_name, Option.ite_none_right_eq_some, Option.some.injEq] at same
  rw [← group, given_name, Option.ite_none_right_eq_some, Option.some.injEq] at otherSame
  rintro rfl
  exact apart (congrArg (fun id : ObjectId => id.loosePath.2) (same.2.trans otherSame.2.symm))

/-- Looking into a group does not fail. -/
theorem Mirrors.inGroup (mirrors : Mirrors stem root memory files) (site : Site directory stem)
    (digits : String) (id : ObjectId) :
    LooseStore.inGroup directory files digits id.loosePath.1 =
      .ok (found files root digits id.loosePath.1) := by
  have admits := site.admits id
  have place : directory.join id.loosePath.1 = Path.below stem id.loosePath.1 :=
    site.joined _ admits.isGroup.relative
  have located := mirrors.standing.find_group admits.toAdmits
  rw [LooseStore.inGroup, place]
  rcases mirrors.group_cases id.loosePath.1 with ⟨_, present⟩ | ⟨free, vacant⟩
  · rw [present, if_pos (by rfl)] at located
    have isDirectory : files.hasDirectory (Path.below stem id.loosePath.1) = true := by
      rw [hasDirectory, FileSystem.lookup?, located]
      simp only [present]
    rw [if_pos isDirectory, list, located]
    rfl
  · rw [vacant, if_neg (by simp)] at located
    have missing : files.hasDirectory (Path.below stem id.loosePath.1) = false := by
      rw [hasDirectory, FileSystem.lookup?, located]
    have nothing : found files root digits id.loosePath.1 = [] := by
      refine List.eq_nil_iff_forall_not_mem.mpr fun other member => ?_
      obtain ⟨held, same, _⟩ := mirrors.mem_found.mp member
      exact free other held same
    rw [missing, nothing]
    rfl

/-- Every group is looked into when none fails. -/
theorem mapM_ok {α β ε : Type} {list : List α} {step : α → Except ε β} {value : α → β}
    (each : ∀ x ∈ list, step x = .ok (value x)) : list.mapM step = .ok (list.map value) := by
  induction list with
  | nil => rfl
  | cons x list inductionHypothesis =>
    obtain ⟨first, others⟩ := List.forall_mem_cons.mp each
    rw [List.mapM_cons, first, inductionHypothesis others]
    rfl

/-- What a memory finds: the identifiers that begin with the text in lower case. -/
theorem mem_beginningWith {text : String} {id : ObjectId} :
    id ∈ memory.beginningWith text ↔
      memory.contains id = true ∧ text.toLower.toList <+: id.hexChars := by
  rw [MemoryStore.beginningWith, List.mem_filter, Std.TreeMap.mem_keys,
    ← Std.TreeMap.contains_iff_mem, List.isPrefixOf_iff_prefix]
  rfl

/-- The identifiers that a memory finds are in order. -/
theorem beginningWith_ordered (memory : MemoryStore) (text : String) :
    (memory.beginningWith text).Pairwise fun first second => compare first second = .lt :=
  Std.TreeMap.ordered_keys.filter _

/-- The groups together give each identifier that begins with the text once. -/
theorem Mirrors.found_perm (mirrors : Mirrors stem root memory files) {text : String}
    (hex : Hexadecimal text) :
    ((groups text.toLower).map (found files root text.toLower)).flatten.Perm
      (memory.beginningWith text) := by
  have once : ((groups text.toLower).map (found files root text.toLower)).flatten.Nodup := by
    refine List.nodup_flatten.mpr ⟨fun list member => ?_, ?_⟩
    · obtain ⟨group, _, rfl⟩ := List.mem_map.mp member
      exact mirrors.found_nodup _ _
    · refine List.pairwise_map.mpr ((groups_nodup hex).1.imp fun apart id first second => ?_)
      obtain ⟨_, group, _⟩ := mirrors.mem_found.mp first
      obtain ⟨_, other, _⟩ := mirrors.mem_found.mp second
      exact apart (group.symm.trans other)
  have onceInMemory := ObjectId.nodup_of_ascending (beginningWith_ordered memory text)
  refine (List.perm_ext_iff_of_nodup once onceInMemory).mpr fun id => ?_
  rw [mem_beginningWith, List.mem_flatten]
  constructor
  · rintro ⟨list, member, inside⟩
    obtain ⟨group, _, rfl⟩ := List.mem_map.mp member
    obtain ⟨held, _, begins⟩ := mirrors.mem_found.mp inside
    exact ⟨held, begins⟩
  · rintro ⟨held, begins⟩
    exact ⟨_, List.mem_map_of_mem (group_searched hex begins),
      mirrors.mem_found.mpr ⟨held, rfl, begins⟩⟩

/-- The files are searched with the result of the memory. -/
theorem Mirrors.beginningWith (mirrors : Mirrors stem root memory files)
    (site : Site directory stem) {text : String} (hex : Hexadecimal text) :
    LooseStore.beginningWith directory files text = .ok (memory.beginningWith text) := by
  have searched :
      (LooseStore.groups text.toLower).mapM (LooseStore.inGroup directory files text.toLower) =
        .ok ((LooseStore.groups text.toLower).map (found files root text.toLower)) := by
    refine mapM_ok fun group member => ?_
    obtain ⟨id, rfl⟩ := (groups_nodup hex).2 group member
    exact mirrors.inGroup site text.toLower id
  rw [LooseStore.beginningWith, searched]
  -- Both lists are in order and hold the same identifiers, so that they are the same.
  refine congrArg Except.ok (List.Perm.eq_of_pairwise (fun first second _ _ => ?_)
    (List.pairwise_mergeSort (fun _ _ _ => Std.TransCmp.isLE_trans) (fun first second => ?_) _)
    ((beginningWith_ordered memory text).imp Ordering.isLE_of_eq_lt)
    ((List.mergeSort_perm _ _).trans (mirrors.found_perm hex)))
  · intro before after
    exact Std.LawfulEqCmp.eq_of_compare (Std.OrientedCmp.isLE_antisymm before after)
  · rw [Bool.or_eq_true]
    by_cases before : (compare first second).isLE = true
    · exact .inl before
    · exact .inr (Ordering.isLE_of_eq_lt (Std.OrientedCmp.lt_of_not_isLE before))

end LooseStore

end Ancestry
