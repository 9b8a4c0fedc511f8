/-!
Texts in which upper and lower case are the same.  Only the letters of ASCII have a case here.
-/

namespace Switchboard.Text

/-- The text in lower case. -/
def lowered (text : String) : String := String.ofList (text.toList.map Char.toLower)

/-- Whether two texts are equal but for the case of letters. -/
def sameButCase (a b : String) : Bool := lowered a == lowered b

end Switchboard.Text
