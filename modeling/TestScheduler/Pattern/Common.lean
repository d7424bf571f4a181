import TestScheduler.Pattern.Basic
import TestScheduler.Pattern.Parser
import TestScheduler.Pattern.Search

/-! # The common dialect

Regular expressions without look-around, references to groups and classes of characters by property.
-/

namespace TestScheduler.Pattern

instance : Dialect Regex where
  parse? := Regex.parse?
  isIn := Regex.isIn

end TestScheduler.Pattern
