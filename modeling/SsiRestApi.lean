import SsiRestApi.Lib.Text
import SsiRestApi.Lib.Fnmatch
import SsiRestApi.Lib.Json
import SsiRestApi.Lib.Crypt
import SsiRestApi.Lib.Bytes
import SsiRestApi.Lib.Acl
import SsiRestApi.Lib.Isolation
import SsiRestApi.Errors
import SsiRestApi.Oauth.Scopes
import SsiRestApi.Oauth.Revocation
import SsiRestApi.Oauth.Redemption
import SsiRestApi.RequestLog.Audit
import SsiRestApi.Mint
import SsiRestApi.ApiKey.Lifecycle
import SsiRestApi.ApiKey.Ownership
import SsiRestApi.SchemeSelection
import SsiRestApi.Extraction
import SsiRestApi.RequestBody
import SsiRestApi.PathSpelling
import SsiRestApi.SessionCookie
import SsiRestApi.CustomEndpoint.Registry
import SsiRestApi.RequestLog.Credentials
import SsiRestApi.Openapi.Exact
import SsiRestApi.Serializer.Restricted
import SsiRestApi.RuleOrder
import SsiRestApi.PageCap
import SsiRestApi.CompanyContext
import SsiRestApi.EnabledUsers
import SsiRestApi.RequestLog.Redaction
import SsiRestApi.Oauth.Exchange
import SsiRestApi.Oauth.Malformed
import SsiRestApi.Oauth.RedirectTarget
import SsiRestApi.Lib.Keywords
import SsiRestApi.MethodCall
import SsiRestApi.EndpointCall
import SsiRestApi.CompanyParameter
import SsiRestApi.BasicCredential
import SsiRestApi.RecordIds
import SsiRestApi.CallAgreement
import SsiRestApi.Lib.Trie
import SsiRestApi.Serializer.Validation
import SsiRestApi.Serializer.Shorthand
import SsiRestApi.Serializer.Servable
import SsiRestApi.Serializer.PlainData
import SsiRestApi.AnyException
import SsiRestApi.ShownSecrets
import SsiRestApi.Openapi.OperationIds
import SsiRestApi.RouteExpansion
import SsiRestApi.RequestLog.Retention
import SsiRestApi.JwksCache
import SsiRestApi.Oauth.Vacuum
import SsiRestApi.Oauth.Lifecycle
import SsiRestApi.ProfileNarrowing
import SsiRestApi.Introspection.Views
import SsiRestApi.Openapi.Schemas
import SsiRestApi.RouteMatching
import SsiRestApi.OrmRestriction
import SsiRestApi.RequestLog.Wire
import SsiRestApi.RequestLog.StoredBody
import SsiRestApi.OrmCalls
import SsiRestApi.Paging
import SsiRestApi.UploadedFiles
import SsiRestApi.Reports
import SsiRestApi.Serializer.TextOrder
import SsiRestApi.AuthSchemes
import SsiRestApi.CallCursor
