import Ancestry.Unicode.CharSet

/-!
# Case folding

Two characters that simple case folding identifies are variants of each other. Most
variants come as pairs at a fixed distance; these are listed by distance, lower
member first. The rest are listed in full.
-/

namespace Ancestry.Unicode.CaseFolding

/-- Characters whose only variant lies a fixed distance above them. -/
structure Pairs where
  distance : Nat
  lower : String

/-- The pairs, by distance. -/
def pairs : List Pairs := [
  ⟨1,
    "100~12e 132~136 139~147 14a~176 179~17d 182~184 187 18b 191 198 1a0~1a4 1a7 1ac 1af
     1b3~1b5 1b8 1bc 1cd~1db 1de~1ee 1f4 1f8~21e 222~232 23b 241 246~24e 370~372 376 3d8~3ee
     3f7 3fa 460 464~480 48a~4be 4c1~4cd 4d0~52e 1c89 1e00~1e5e 1e62~1e94 1ea0~1efe 2183 2c60
     2c67~2c6b 2c72 2c75 2c80~2ce2 2ceb~2ced 2cf2 a640~a648 a64c~a66c a680~a69a a722~a72e
     a732~a76e a779~a77b a77e~a786 a78b a790~a792 a796~a7a8 a7b4~a7c2 a7c7~a7c9 a7cc a7d0
     a7d6~a7da a7f5 fb05"⟩,
  ⟨7,
    "3f2 1fe5"⟩,
  ⟨8,
    "3cf 13f0-13f5 1f00-1f07 1f10-1f15 1f20-1f27 1f30-1f37 1f40-1f45 1f51~1f57 1f60-1f67
     1f80-1f87 1f90-1f97 1fa0-1fa7 1fb0-1fb1 1fd0-1fd1 1fe0-1fe1"⟩,
  ⟨9,
    "1fb3 1fc3 1ff3"⟩,
  ⟨15,
    "4c0"⟩,
  ⟨16,
    "2160-216f"⟩,
  ⟨26,
    "24b6-24cf"⟩,
  ⟨28,
    "2132"⟩,
  ⟨32,
    "41-4a 4c~5a 4d~51 55~59 c0~de c1~c3 c7~d5 d9~dd 391~393 394~396 397 39b~39f 39e 3a4-3a5
     3a7-3a8 3aa-3ab 410-411 413~41f 416~41c 420 423-429 42b-42f ff21-ff3a 10d50-10d65
     118a0-118bf 16e40-16e5f"⟩,
  ⟨34,
    "1e900-1e921"⟩,
  ⟨37,
    "388-38a"⟩,
  ⟨38,
    "386"⟩,
  ⟨39,
    "10570~10594 10571~10579 1057d~10589 1058d~10591 10595"⟩,
  ⟨40,
    "10400-10427 104b0-104d3"⟩,
  ⟨48,
    "531-556 2c00-2c2f a794"⟩,
  ⟨56,
    "1bf"⟩,
  ⟨63,
    "38e-38f"⟩,
  ⟨64,
    "38c 10c80-10cb2"⟩,
  ⟨69,
    "244"⟩,
  ⟨71,
    "245"⟩,
  ⟨74,
    "1f70-1f71"⟩,
  ⟨79,
    "18e"⟩,
  ⟨80,
    "400-40f"⟩,
  ⟨86,
    "1f72-1f75"⟩,
  ⟨97,
    "195"⟩,
  ⟨100,
    "1f76-1f77"⟩,
  ⟨112,
    "1f7a-1f7b"⟩,
  ⟨116,
    "37f"⟩,
  ⟨121,
    "ff"⟩,
  ⟨126,
    "1f7c-1f7d"⟩,
  ⟨128,
    "1f78-1f79"⟩,
  ⟨130,
    "19e 37b-37d"⟩,
  ⟨163,
    "19a"⟩,
  ⟨195,
    "180"⟩,
  ⟨202,
    "18f"⟩,
  ⟨203,
    "190"⟩,
  ⟨205,
    "189-18a 193"⟩,
  ⟨206,
    "186"⟩,
  ⟨207,
    "194"⟩,
  ⟨209,
    "197"⟩,
  ⟨210,
    "181"⟩,
  ⟨211,
    "196 19c"⟩,
  ⟨213,
    "19d"⟩,
  ⟨214,
    "19f"⟩,
  ⟨217,
    "1b1-1b2"⟩,
  ⟨218,
    "1a6 1a9 1ae"⟩,
  ⟨219,
    "1b7"⟩,
  ⟨928,
    "a7b3"⟩,
  ⟨3008,
    "10d0-10fa 10fd-10ff"⟩,
  ⟨3814,
    "1d7d"⟩,
  ⟨7219,
    "3b0"⟩,
  ⟨7235,
    "390"⟩,
  ⟨7264,
    "10a0-10c5 10c7 10cd"⟩,
  ⟨7615,
    "df"⟩,
  ⟨10727,
    "27d"⟩,
  ⟨10743,
    "26b"⟩,
  ⟨10749,
    "271"⟩,
  ⟨10780,
    "251"⟩,
  ⟨10782,
    "252"⟩,
  ⟨10783,
    "250"⟩,
  ⟨10792,
    "23e"⟩,
  ⟨10795,
    "23a"⟩,
  ⟨10815,
    "23f-240"⟩,
  ⟨35332,
    "1d79"⟩,
  ⟨35384,
    "1d8e"⟩,
  ⟨38864,
    "13a0-13ef"⟩,
  ⟨42258,
    "29e"⟩,
  ⟨42261,
    "29d"⟩,
  ⟨42280,
    "265"⟩,
  ⟨42282,
    "287"⟩,
  ⟨42305,
    "26c"⟩,
  ⟨42307,
    "282"⟩,
  ⟨42308,
    "266 26a"⟩,
  ⟨42315,
    "261"⟩,
  ⟨42319,
    "25c"⟩,
  ⟨42343,
    "264"⟩,
  ⟨42561,
    "19b"⟩]

/-- The groups of three and more variants. -/
def groups : List (List Nat) := [
  [0x4B, 0x6B, 0x212A],
  [0x53, 0x73, 0x17F],
  [0xB5, 0x39C, 0x3BC],
  [0xC5, 0xE5, 0x212B],
  [0x1C4, 0x1C5, 0x1C6],
  [0x1C7, 0x1C8, 0x1C9],
  [0x1CA, 0x1CB, 0x1CC],
  [0x1F1, 0x1F2, 0x1F3],
  [0x345, 0x399, 0x3B9, 0x1FBE],
  [0x392, 0x3B2, 0x3D0],
  [0x395, 0x3B5, 0x3F5],
  [0x398, 0x3B8, 0x3D1, 0x3F4],
  [0x39A, 0x3BA, 0x3F0],
  [0x3A0, 0x3C0, 0x3D6],
  [0x3A1, 0x3C1, 0x3F1],
  [0x3A3, 0x3C2, 0x3C3],
  [0x3A6, 0x3C6, 0x3D5],
  [0x3A9, 0x3C9, 0x2126],
  [0x412, 0x432, 0x1C80],
  [0x414, 0x434, 0x1C81],
  [0x41E, 0x43E, 0x1C82],
  [0x421, 0x441, 0x1C83],
  [0x422, 0x442, 0x1C84, 0x1C85],
  [0x42A, 0x44A, 0x1C86],
  [0x462, 0x463, 0x1C87],
  [0x1C88, 0xA64A, 0xA64B],
  [0x1E60, 0x1E61, 0x1E9B]]

/-- The characters of a pair with a lower member in some ranges. -/
def pairsOf (distance : Nat) (ranges : List CharRange) : List (List Nat) :=
  ranges.flatMap fun range =>
    (List.range' range.first (range.last - range.first + 1)).map fun point =>
      [point, point + distance]

/-- All groups of variants. -/
def variants : List (List Nat) :=
  (pairs.flatMap fun table => pairsOf table.distance (CharSet.ofTable table.lower).ranges) ++ groups

/-- Variants within ASCII. -/
def asciiVariants : List (List Nat) := pairsOf 32 [⟨0x41, 0x5A⟩]

/-- A set with the variants of its characters, among some groups of variants. -/
def closureUnder (groups : List (List Nat)) (set : CharSet) : CharSet :=
  let met := groups.filter fun group => group.any set.containsPoint
  set.union (CharSet.ofRanges (met.flatMap fun group => group.map fun point => ⟨point, point⟩))

/-- A set with all variants of its characters. -/
def closure (set : CharSet) : CharSet := closureUnder variants set

/-- A set with the variants that lie within ASCII. -/
def asciiClosure (set : CharSet) : CharSet := closureUnder asciiVariants set

end Ancestry.Unicode.CaseFolding
