import MiniWeb.RequestHandler.Credentials

/-!
# Server blocks

The part of the configuration the front ends read: the server blocks and the limit on a request.
`config_find_server` picks the block for a `Host` header.
-/

namespace MiniWeb.Config

open CStr RequestHandler

/-- `server_block_t`. -/
structure ServerBlock where
  host : CStr
  port : Int
  root : CStr
  accessLog : CStr
  serverNames : List CStr
  isDefault : Bool
deriving DecidableEq, Repr

/-- What the front ends read of `server_config_t`. -/
structure ServerConfig where
  servers : List ServerBlock
  maxRequestBytes : Int
deriving DecidableEq, Repr

/-- `strcasecmp_safe`. -/
def strcasecmp : CStr → CStr → Int
  | a :: s, b :: t =>
    if toLower a ≠ toLower b then (toLower a).toNat - (toLower b).toNat else strcasecmp s t
  | [], [] => 0
  | a :: _, [] => a.toNat
  | [], b :: _ => -b.toNat

/-- The block without names that matches every host, or one with the host among its names. -/
def ServerBlock.matchesHost (hostClean : CStr) (block : ServerBlock) : Bool :=
  block.serverNames = [] || block.serverNames.any fun name => strcasecmp hostClean name = 0

/-- `config_find_server` on a configuration that is not `NULL`. -/
def configFindServer (config : ServerConfig) (hostHeader : CStr) : Option ServerBlock :=
  let default := (config.servers.find? (·.isDefault)).or config.servers.head?
  if hostHeader = [] then default
  else
    let hostClean := (cut 128 hostHeader).takeWhile (· ≠ 58)
    (config.servers.find? (·.matchesHost hostClean)).or default

end MiniWeb.Config
