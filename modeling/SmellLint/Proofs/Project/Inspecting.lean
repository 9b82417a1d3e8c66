import Mathlib.Data.String.Basic
import SmellLint.Proofs.CallGraph.Sound
import SmellLint.Proofs.Project.Noted

/-!
# When an inspection fails

With the methods that come with the program, an inspection of a file gives rows exactly if the bytes
of the file are the text of a program (`Analyzer.inspect_of_shipped`).  What is missing is reported
as not found, unless its name could not be the name of anything.
-/

namespace SmellLint

open Syntax (Node)
open Content Path Run Text Text.Utf8

/-! ## Reading what lies at a path -/

namespace Workspace.Sound

variable {w : Workspace} {path : String}

end Workspace.Sound

/-! ## Inspecting what was read -/

namespace Inspection

theorem exists_knownFunctions_shipped (tree : Node) :
    ∃ known, knownFunctions .shipped tree = .ok known := by
  cases hknown : knownFunctions .shipped tree with
  | ok known => exact ⟨known, rfl⟩
  | error e =>
    have hunknown : none ∈ Catalogue.shippedFrameMethods.map some :=
      (knownFunctions_eq_error hknown).2
    simp at hunknown

/-- The rows of a program, with the methods that come with the program. -/
theorem exists_result_ofSource_shipped (filename : String) {source : String} {tree : Node}
    (h : Node.ofSource? source = some tree) :
    ∃ known, knownFunctions .shipped tree = .ok known ∧
      (ofSource .shipped filename source).result = .ok (known.flatMap fun p =>
        rowsWith .shipped filename source tree p.1 (lastFacts known p.1.functionName)) := by
  obtain ⟨known, hknown⟩ := exists_knownFunctions_shipped tree
  refine ⟨known, hknown, ?_⟩
  rw [ofSource, h]
  rw [result_ofTree h, hknown]
  rfl

end Inspection

end SmellLint
