import Mathlib.Data.List.Basic

namespace Trakrai.Backend

structure FactoryRow where
  id : String
  name : String
  description : Option String
deriving DecidableEq

structure DepartmentRow where
  id : String
  factoryId : String
  name : String
  description : Option String
deriving DecidableEq

structure DeviceRow where
  id : String
  departmentId : String
  name : String
  description : Option String
  accessToken : String
  isActive : Bool
deriving DecidableEq

structure CatalogRow where
  key : String
  serviceName : String
  displayName : String
  navigationLabel : String
  routePath : Option String
  rendererKey : Option String
  description : Option String
  sortOrder : Int
  defaultEnabled : Bool
  readActions : List String
  writeActions : List String
deriving DecidableEq

structure InstallationRow where
  id : String
  deviceId : String
  componentKey : String
  enabled : Bool
deriving DecidableEq

inductive TrpcError where
  | badRequest (message : String)
  | unauthorized (message : String)
  | forbidden (message : String)
  | notFound (message : String)
  | internal (message : String)
deriving DecidableEq

structure User where
  id : String
  role : Option String
deriving DecidableEq

end Trakrai.Backend
