import Ancestry.Unicode.Age
import Ancestry.Unicode.Script
import Ancestry.Unicode.Segment

/-!
# Sets of characters by name

Names are compared without case, blanks, hyphens, underscores and characters outside
ASCII, and without `is` in front. A name alone is that of a property, a general category
or a script; a name with a value is that of a general category, of a script with or
without the characters that it shares, of an age, or of a class of characters in the
cutting of texts.
-/

namespace Ancestry.Unicode

/-- The form in which a name is looked up, where what follows `is` counts. -/
def plainName (chars : List Char) : List Char :=
  (chars.filter fun c => c.toNat < 0x80 && c != ' ' && c != '_' && c != '-').map Char.toLower

/-- The form in which a name is looked up. One letter alone that follows `is` does not
become the name of a category when it is `c`. -/
def lookupName (name : String) : String :=
  match name.toList with
  | i :: s :: rest =>
    if i.toLower = 'i' ∧ s.toLower = 's' then
      if plainName rest = ['c'] then "isc" else String.ofList (plainName rest)
    else String.ofList (plainName (i :: s :: rest))
  | chars => String.ofList (plainName chars)

open Category

/-- General categories and their names. Surrogates are no characters. -/
def categories : List (List String × CharSet) :=
  [(["any"], .all), (["assigned"], assigned), (["ascii"], .interval 0 0x7F),
    (["c", "other"], other), (["cc", "control", "cntrl"], control), (["cf", "format"], format),
    (["cn", "unassigned"], unassigned), (["co", "privateuse"], privateUse),
    (["l", "letter"], letter), (["lc", "casedletter"], casedLetter),
    (["ll", "lowercaseletter"], lowercaseLetter), (["lm", "modifierletter"], modifierLetter),
    (["lo", "otherletter"], otherLetter), (["lt", "titlecaseletter"], titlecaseLetter),
    (["lu", "uppercaseletter"], uppercaseLetter), (["m", "mark", "combiningmark"], mark),
    (["mc", "spacingmark"], spacingMark), (["me", "enclosingmark"], enclosingMark),
    (["mn", "nonspacingmark"], nonspacingMark), (["n", "number"], number),
    (["nd", "decimalnumber", "digit"], decimalNumber), (["nl", "letternumber"], letterNumber),
    (["no", "othernumber"], otherNumber), (["p", "punctuation", "punct"], punctuation),
    (["pc", "connectorpunctuation"], connectorPunctuation),
    (["pd", "dashpunctuation"], dashPunctuation), (["pe", "closepunctuation"], closePunctuation),
    (["pf", "finalpunctuation"], finalPunctuation),
    (["pi", "initialpunctuation"], initialPunctuation),
    (["po", "otherpunctuation"], otherPunctuation), (["ps", "openpunctuation"], openPunctuation),
    (["s", "symbol"], symbol), (["sc", "currencysymbol"], currencySymbol),
    (["sk", "modifiersymbol"], modifierSymbol), (["sm", "mathsymbol"], mathSymbol),
    (["so", "othersymbol"], otherSymbol), (["z", "separator"], separator),
    (["zl", "lineseparator"], lineSeparator), (["zp", "paragraphseparator"], paragraphSeparator),
    (["zs", "spaceseparator"], spaceSeparator)]

/-- The general category of a name in lookup form. -/
def category? (name : String) : Option CharSet :=
  (categories.find? (·.1.contains name)).map (·.2)

/-- The script of a name in lookup form. -/
def script? (name : String) : Option Script := Script.all.find? (·.names.contains name)

/-- The characters of the property of a name in lookup form, among some properties. -/
def among? (properties : List Property) (name : String) : Option CharSet :=
  (properties.find? (·.names.contains name)).map Property.set

/-- The characters that a name alone stands for. -/
def named? (name : String) : Option CharSet :=
  let key := lookupName name
  among? Property.all key <|> category? key <|>
    (script? key).map Script.set

/-- The characters that a name with a value stands for. -/
def valued? (name value : String) : Option CharSet :=
  let key := lookupName name
  let value := lookupName value
  if key = "gc" ∨ key = "generalcategory" then category? value
  else if key = "sc" ∨ key = "script" then (script? value).map Script.set
  else if key = "scx" ∨ key = "scriptextensions" then (script? value).map Script.extensions
  else if key = "age" then Age.upTo? value
  else if key = "gcb" ∨ key = "graphemeclusterbreak" then among? Segment.clusterClasses value
  else if key = "sb" ∨ key = "sentencebreak" then among? Segment.sentenceClasses value
  else if key = "wb" ∨ key = "wordbreak" then among? Segment.wordClasses value
  else none

end Ancestry.Unicode
