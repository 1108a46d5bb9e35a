import Yunpan.Core.Text
import Yunpan.Core.Value

/-!
# The desktop's configuration

What the user sets in the window, and the document that the file server is
started from.  `serde_yaml` returns the document's strings as they were written,
so the document stands for its text.
-/

namespace Yunpan.Desktop

open Yunpan.Text

structure RelaySettings where
  enabled : Bool
  host : String
  controlPort : UInt16
  clientId : String
  token : String
  remotePort : UInt16
  tls : Bool
  pathPrefix : Bool

structure AppConfig where
  servePath : String
  port : UInt16
  lanVisible : Bool
  allowUpload : Bool
  allowDelete : Bool
  allowSearch : Bool
  allowArchive : Bool
  authUser : String
  authPass : String
  guestReadonly : Bool
  autoStartShare : Bool
  relay : RelaySettings

def RelaySettings.default : RelaySettings where
  enabled := false
  host := ""
  controlPort := 7100
  clientId := ""
  token := ""
  remotePort := 8080
  tls := true
  pathPrefix := false

def AppConfig.default : AppConfig where
  servePath := ""
  port := 5000
  lanVisible := true
  allowUpload := false
  allowDelete := false
  allowSearch := true
  allowArchive := true
  authUser := ""
  authPass := ""
  guestReadonly := true
  autoStartShare := false
  relay := .default

/-! ## The saved file -/

def portValue (port : UInt16) : Value := .number (.natural (UInt64.ofNat port.toNat))

def RelaySettings.toJson (relay : RelaySettings) : Value :=
  .object [
    ("enabled", .bool relay.enabled),
    ("host", .string relay.host),
    ("control_port", portValue relay.controlPort),
    ("client_id", .string relay.clientId),
    ("token", .string relay.token),
    ("remote_port", portValue relay.remotePort),
    ("tls", .bool relay.tls),
    ("path_prefix", .bool relay.pathPrefix)]

/-- What `AppConfig::save` writes. -/
def AppConfig.toJson (cfg : AppConfig) : Value :=
  .object [
    ("serve_path", .string cfg.servePath),
    ("port", portValue cfg.port),
    ("lan_visible", .bool cfg.lanVisible),
    ("allow_upload", .bool cfg.allowUpload),
    ("allow_delete", .bool cfg.allowDelete),
    ("allow_search", .bool cfg.allowSearch),
    ("allow_archive", .bool cfg.allowArchive),
    ("auth_user", .string cfg.authUser),
    ("auth_pass", .string cfg.authPass),
    ("guest_readonly", .bool cfg.guestReadonly),
    ("auto_start_share", .bool cfg.autoStartShare),
    ("relay", cfg.relay.toJson)]

/-! ## The file server's document -/

structure DufsYaml where
  servePath : String
  bind : String
  port : UInt16
  allowUpload : Bool
  allowDelete : Bool
  allowSearch : Bool
  allowArchive : Bool
  auth : List String
  pathPrefix : Option String

namespace AppConfig

variable (cfg : AppConfig)

def authEnabled : Bool := trim cfg.authUser ≠ "" && trim cfg.authPass ≠ ""

def auth : List String :=
  if cfg.authEnabled then
    (trim cfg.authUser ++ ":" ++ trim cfg.authPass ++ "@/:rw") ::
      if cfg.guestReadonly then ["@/"] else []
  else []

def pathPrefix : Option String :=
  if cfg.relay.enabled ∧ cfg.relay.pathPrefix ∧ trim cfg.relay.clientId ≠ "" then
    some (trim cfg.relay.clientId)
  else none

def toDufsYaml : DufsYaml where
  servePath := cfg.servePath
  bind := if cfg.lanVisible then "0.0.0.0" else "127.0.0.1"
  port := cfg.port
  allowUpload := cfg.allowUpload
  allowDelete := cfg.allowDelete
  allowSearch := cfg.allowSearch
  allowArchive := cfg.allowArchive
  auth := cfg.auth
  pathPrefix := cfg.pathPrefix

end AppConfig

end Yunpan.Desktop
