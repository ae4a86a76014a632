import Velacritty.HandlerSound
import Velacritty.TermSteps

/-! Moving over tab stops goes to the n-th of them. -/
namespace Velacritty
open Fallible

variable {tabs : List Bool} {a b c columns column count : Nat}

namespace Term
variable {t : Term}

end Term
end Velacritty
