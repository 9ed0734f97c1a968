import SsiRestApi.Routing

/-!
# The routes of the repository

Every `rest_route` of its eight controllers.
-/

namespace SsiRest.Routes

/-- `ssi_rest_api`. -/
def ping : RestRoute where
  endpoint := "ping"
  paths := ["/ping"]
  auth := .core "public"
  methods := none
  operation := some "ping"

/-! ## ssi_rest_api_auth_oauth2 -/

def authorize : RestRoute where
  endpoint := "authorize"
  paths := ["/oauth2/authorize"]
  auth := .core "user"
  methods := some ["GET"]
  operation := none

def token : RestRoute where
  endpoint := "token"
  paths := ["/oauth2/token"]
  auth := .core "public"
  methods := some ["POST"]
  operation := none

def revoke : RestRoute where
  endpoint := "revoke"
  paths := ["/oauth2/revoke"]
  auth := .core "public"
  methods := some ["POST"]
  operation := none

/-- A route of `auth="ssi_rest"` with one path. -/
def ssiRestRoute (endpoint path : String) (methods : List String) (operation : Option String) :
    RestRoute where
  endpoint := endpoint
  paths := [path]
  methods := some methods
  operation := operation

/-! ## ssi_rest_api_orm -/

def ormSearch := ssiRestRoute "orm_search" "/orm/<string:model>/search" ["GET"] (some "read")

def ormRead := ssiRestRoute "orm_read" "/orm/<string:model>/read" ["GET"] (some "read")

def ormSearchRead :=
  ssiRestRoute "orm_search_read" "/orm/<string:model>/search_read" ["GET"] (some "read")

def ormReadGroup :=
  ssiRestRoute "orm_read_group" "/orm/<string:model>/read_group" ["GET"] (some "read")

def ormCreate := ssiRestRoute "orm_create" "/orm/<string:model>/create" ["POST"] (some "create")

def ormWrite :=
  ssiRestRoute "orm_write" "/orm/<string:model>/write" ["PUT", "PATCH"] (some "write")

def ormUnlink := ssiRestRoute "orm_unlink" "/orm/<string:model>/unlink" ["DELETE"] (some "unlink")

def ormCall :=
  ssiRestRoute "orm_call" "/orm/<string:model>/call/<string:method>" ["POST"] (some "call")

/-! ## ssi_rest_api_binary -/

def binaryDownload :=
  ssiRestRoute "binary_download" "/binary/<string:model>/<int:res_id>" ["GET"] (some "read")

def binaryUpload :=
  ssiRestRoute "binary_upload" "/binary/<string:model>/<int:res_id>" ["POST"] (some "write")

/-! ## ssi_rest_api_report -/

def reportList := ssiRestRoute "report_list" "/report/list" ["GET"] (some "read")

def reportRender := ssiRestRoute "report_render" "/report/render" ["GET"] (some "read")

/-! ## ssi_rest_api_introspection -/

def introspectionModels :=
  ssiRestRoute "introspection_models" "/introspection/models" ["GET"] (some "read")

def introspectionModelDetail :=
  ssiRestRoute "introspection_model_detail" "/introspection/models/<string:model>" ["GET"]
    (some "read")

def introspectionModelFields :=
  ssiRestRoute "introspection_model_fields" "/introspection/models/<string:model>/fields" ["GET"]
    (some "read")

def introspectionRecordMetadata :=
  ssiRestRoute "introspection_record_metadata"
    "/introspection/models/<string:model>/<int:res_id>/metadata" ["GET"] (some "read")

def introspectionServer :=
  ssiRestRoute "introspection_server" "/introspection/server" ["GET"] (some "read")

def introspectionCompany :=
  ssiRestRoute "introspection_company" "/introspection/company" ["GET"] (some "read")

def introspectionAccessRights :=
  ssiRestRoute "introspection_access_rights" "/introspection/access_rights" ["GET"] (some "read")

def introspectionAccessFields :=
  ssiRestRoute "introspection_access_fields" "/introspection/access_fields" ["GET"] (some "read")

def introspectionGroups :=
  ssiRestRoute "introspection_groups" "/introspection/groups" ["GET"] (some "read")

def introspectionHasGroup :=
  ssiRestRoute "introspection_has_group" "/introspection/has_group" ["GET"] (some "read")

/-! ## ssi_rest_api_doc -/

def openapiDocument := ssiRestRoute "openapi_document" "/openapi.json" ["GET"] (some "read")

def openapiUi := ssiRestRoute "openapi_ui" "/openapi/ui" ["GET"] (some "read")

/-! ## ssi_rest_api_endpoint -/

def customEndpointCall :=
  ssiRestRoute "custom_endpoint_call" "/x/<path:subpath>" ["GET", "POST", "PUT", "PATCH", "DELETE"]
    none

/-- The routes that `auth="ssi_rest"` protects. -/
def ssiRestRoutes : List RestRoute :=
  [ormSearch, ormRead, ormSearchRead, ormReadGroup, ormCreate, ormWrite, ormUnlink, ormCall,
   binaryDownload, binaryUpload, reportList, reportRender, introspectionModels,
   introspectionModelDetail, introspectionModelFields, introspectionRecordMetadata,
   introspectionServer, introspectionCompany, introspectionAccessRights, introspectionAccessFields,
   introspectionGroups, introspectionHasGroup, openapiDocument, openapiUi, customEndpointCall]

/-- Every route of the repository. -/
def restRoutes : List RestRoute :=
  [ping, authorize, token, revoke] ++ ssiRestRoutes

end SsiRest.Routes
