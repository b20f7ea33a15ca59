import Informer.Resource.ConfigMap
import Informer.Resource.Deployment
import Informer.Resource.Widget

/-!
# The known resources

The resources that a source can be made for by name, with what each name stands for.
-/

namespace Informer

/-- The name of a known type of resources. -/
inductive Known where
  | widget
  | deployment
  | configMap
deriving DecidableEq

namespace Known

/-- The type of resources that a name stands for. -/
def Carrier : Known → Type
  | widget => Widget
  | deployment => Deployment
  | configMap => ConfigMap

instance : (k : Known) → DecidableEq k.Carrier
  | widget => inferInstanceAs (DecidableEq Widget)
  | deployment => inferInstanceAs (DecidableEq Deployment)
  | configMap => inferInstanceAs (DecidableEq ConfigMap)

instance : (k : Known) → Resource k.Carrier
  | widget => inferInstanceAs (Resource Widget)
  | deployment => inferInstanceAs (Resource Deployment)
  | configMap => inferInstanceAs (Resource ConfigMap)

/-- The kind that a name stands for. -/
def kind (k : Known) : Kind := Resource.kind k.Carrier

/-- The known resources, by the names of their kinds. -/
def ofName? (name : String) : Option Known :=
  [widget, deployment, configMap].find? (·.kind.name = name)

end Known

end Informer
