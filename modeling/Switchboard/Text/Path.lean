/-!
Paths as texts: parts joined by one slash.
-/

namespace Switchboard.Text

/-- `part` under `base`.  No slash is added after a base that ends in one or is empty, and an
absolute part stands alone. -/
def joinPath (base part : String) : String :=
  if part.toList.head? = some '/' then part
  else if base = "" || base.toList.getLast? = some '/' then base ++ part
  else base ++ "/" ++ part

end Switchboard.Text
