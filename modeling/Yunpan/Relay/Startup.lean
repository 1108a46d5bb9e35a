import Yunpan.Relay.Isolation

/-!
# From the configuration file to a running relay

`load_config` checks the file, and `yunpan-relay check` calls a file valid that passes.
What the relay needs of its configuration is spread over `Relay::new`, the ticker of a
session and the look-ups by client id; the two agree for some configurations only.
-/

namespace Yunpan.Relay

open Yunpan.Protocol Yunpan.Transition

/-! ## `load_config` -/

inductive ConfigError where
  | read (path : String)
  | parse (path : String)
  | halfTls
  | noClients
  | shortToken (id : String) (length : ℕ)
  | noPorts (id : String)
  | routerIsControl
  | controlListed (id : String) (port : UInt16)
  deriving DecidableEq

def ConfigError.message : ConfigError → String
  | .read path => "读取配置 " ++ path ++ " 失败"
  | .parse path => "解析配置 " ++ path ++ " 失败"
  | .halfTls => "tls_cert 和 tls_key 要么都给要么都不给"
  | .noClients => "配置里一个客户端都没有，中继起来也没人能用"
  | .shortToken id length =>
      "客户端 " ++ id ++ " 的令牌太短（" ++ length.repr ++
        " 字符）。用 `yunpan-relay token` 生成一个"
  | .noPorts id =>
      "客户端 " ++ id ++
        " 没有可用端口。要么给它端口白名单，要么开启 path_router_port 走路径路由"
  | .routerIsControl => "path_router_port 不能与控制端口相同"
  | .controlListed id port =>
      "客户端 " ++ id ++ " 的端口白名单里有控制端口 " ++ port.toNat.repr ++
        "，会把中继自己顶掉"

/-- What the loop over the clients refuses. -/
def RelayConfig.clientError (cfg : RelayConfig) (client : ClientAuth) :
    Option ConfigError :=
  if (utf8 client.token).length < 16 then
    some (.shortToken client.id (utf8 client.token).length)
  else if client.ports.isEmpty ∧ cfg.pathRouterPort.isNone then
    some (.noPorts client.id)
  else if some cfg.controlPort = cfg.pathRouterPort then some .routerIsControl
  else if client.ports.contains cfg.controlPort then
    some (.controlListed client.id cfg.controlPort)
  else none

/-- The first thing that `load_config` refuses. -/
def RelayConfig.error (cfg : RelayConfig) : Option ConfigError :=
  if cfg.tlsCert.isSome ≠ cfg.tlsKey.isSome then some .halfTls
  else if cfg.clients.isEmpty then some .noClients
  else cfg.clients.findSome? cfg.clientError

/-- `load_config`, with the file system and the TOML reader as parameters. -/
def loadConfig (readToString : String → Option String)
    (fromStr : String → Option RelayConfig) (path : String) :
    Except ConfigError RelayConfig :=
  match readToString path with
  | none => .error (.read path)
  | some text =>
      match fromStr text with
      | none => .error (.parse path)
      | some cfg =>
          match cfg.error with
          | some error => .error error
          | none => .ok cfg

/-! ## `Relay::new` -/

section

variable {crates : Crates} {cfg : RelayConfig} {Acceptor : Type}
  {makeAcceptor : String → String → Option Acceptor}

theorem loadConfig_of_error {readToString : String → Option String}
    {fromStr : String → Option RelayConfig} {path text : String}
    (hread : readToString path = some text) (hparse : fromStr text = some cfg)
    (herror : cfg.error = none) : loadConfig readToString fromStr path = .ok cfg := by
  simp only [loadConfig, hread, hparse, herror]

end

def tomlConfig (heartbeatSecs : UInt64) : RelayConfig where
  bind := .v4 "0.0.0.0"
  controlPort := 7100
  heartbeatSecs := heartbeatSecs
  publicHost := none
  tlsCert := some "fullchain.pem"
  tlsKey := some "privkey.pem"
  visitorBind := none
  pathRouterPort := some 7200
  publicBaseUrl := none
  visitorTls := some true
  clients :=
    [⟨"mac", "mac-0123456789abcdef", [8080], none⟩,
      ⟨"pc", "pc-0123456789abcdef", [], none⟩]

theorem length_tokens : (utf8 "mac-0123456789abcdef").length = 20 ∧
    (utf8 "pc-0123456789abcdef").length = 19 := by
  decide +kernel

end Yunpan.Relay
