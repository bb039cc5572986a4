import Fluxcope.Mapping.ScanSpec
import Fluxcope.Settings.App
import Fluxcope.Settings.MappingRead
/-!
# Which preset a name stands for

The engine, the mutations, the status and the reads each look a preset up by its
name.  The first two trim both names and the last two compare them as they are
spelled, so they agree on names spelled as the settings have them.
-/

namespace Fluxcope.Settings

open Fluxcope.Library Fluxcope.Mapping

variable {proxy : ProxySettings} {name : Text} {index : Nat}

/-! ## Resolution -/

end Fluxcope.Settings
