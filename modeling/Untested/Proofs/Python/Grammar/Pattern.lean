/-
# What the rules for patterns yield
-/

import Untested.Python.Grammar.Pattern
import Untested.Proofs.Python.Grammar.Expression

open Std.Do

set_option mvcgen.warning false

namespace Untested.Python.Reading

variable [reading : Reading]

@[spec]
theorem keeps_dottedName (bound : Nat) (follow : Expected) :
    reading.Keeps (dottedName bound follow) (AreFormed reading.source) := by
  mvcgen [dottedName, keeps_repeated_areFormed] with grind -linarith

@[spec]
theorem keeps_numeral (follow : Expected) :
    reading.Keeps (numeral follow) (AreFormed reading.source) := by
  mvcgen [numeral] with grind -linarith

@[spec]
theorem keeps_numberPattern (follow : Expected) :
    reading.Keeps (numberPattern follow) (AreFormed reading.source) := by
  mvcgen [numberPattern] with grind -linarith

@[spec]
theorem keeps_atPattern : reading.Keeps atPattern fun _ => True := by
  mvcgen [atPattern]

@[spec]
theorem keeps_starredPattern (follow : Expected) :
    reading.Keeps (starredPattern follow) (AreFormed reading.source) := by
  mvcgen [starredPattern] with grind -linarith

variable {rules : Rules} (hrules : AreLawful reading.source rules) (bound : Nat)

include hrules

@[spec]
theorem keeps_enclosedPatterns (opening closing : String) (follow : Expected) :
    reading.Keeps (enclosedPatterns rules bound opening closing follow)
      (AreFormed reading.source) := by
  have hrule := hrules.keeps
  mvcgen [enclosedPatterns, hrule, keeps_moreElements] with grind -linarith

@[spec]
theorem keeps_dictionaryPattern (follow : Expected) :
    reading.Keeps (closedPattern.dictionaryPattern rules bound follow)
      (AreFormed reading.source) := by
  have hrule := hrules.keeps
  mvcgen [closedPattern.dictionaryPattern, hrule, keeps_moreElements]
  case vc27 key _ _ colon _ _ value _ _ _ _ _ _ _ _ _ _ =>
    have hfirst : AreFormed reading.source (wrap .other (key ++ colon ++ value)) := by grind
    grind
  all_goals grind

@[spec]
theorem keeps_closedPattern (follow : Expected) :
    reading.Keeps (closedPattern rules bound follow) (AreFormed reading.source) := by
  mvcgen [closedPattern] with grind -linarith

@[spec]
theorem keeps_casePattern (context : Context) :
    reading.Keeps (casePattern rules bound context) (AreFormed reading.source) := by
  have hrule := hrules.keeps
  mvcgen [casePattern, hrule, keeps_repeated_areFormed] with grind -linarith

end Untested.Python.Reading
