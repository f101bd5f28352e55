import Schemata.Plugins.ClassModels
import Schemata.Plugins.Documents

/-!
# The catalogue of plugins
-/

namespace Schemata

/-- The registry with all plugins of this library, and the journal of the registrations. -/
def catalogue : Progress PipelineError Registry :=
  (registerClassModels .builtin).andThen registerDocuments

end Schemata
