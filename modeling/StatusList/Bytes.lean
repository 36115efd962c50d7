/-!
# Byte strings

Byte strings are compared in one way throughout, as wholes.
-/

namespace StatusList

/-- Whether two byte strings are the same. -/
instance instDecidableEqBytes : DecidableEq ByteArray := ByteArray.decEq

end StatusList
