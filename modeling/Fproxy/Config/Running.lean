import Fproxy.Client.State
import Fproxy.Config.Load
import Fproxy.Server.State

/-!
# From a loaded configuration to a running program

The machines of the client and the server start from a configuration that `validate` has let
through: a client has a server to send to, a server has a window of positive size, and both have a
positive timeout.

* **`load_client_running`**, **`load_server_running`** — a successful load gives such a
  configuration.
-/

namespace Fproxy.Config

open Fproxy.Fallible

/-- What the client runs with; its clock counts nanoseconds. -/
def ClientConfig.running (client : ClientConfig) : Client.ClientConfig :=
  ⟨client.servers, client.sessionTimeout.toNanos⟩

/-- What the server runs with. -/
def ServerConfig.running (server : ServerConfig) (h : 1 ≤ server.dedupWindow) :
    Server.ServerConfig :=
  ⟨server.dedupWindow, server.sessionTimeout.toNanos, h⟩

/-- The default is not zero. -/
theorem orDefault_pos (d : Duration) : 0 < d.orDefault.toNanos := by
  unfold Duration.orDefault
  by_cases hzero : d.isZero = true
  · rw [if_pos hzero]
    decide
  · rw [if_neg hzero]
    have hne : d.toNanos ≠ 0 := fun h => hzero ((isZero_iff d).mpr h)
    omega

variable {Ip : Type} [DecidableEq Ip] {parseIp : String → Option Ip}
  {loadFromFile : String → Except ConfigError YamlConfig} {args : CliArgs} {config : Config}

/-- **A loaded client** has a server and a timeout. -/
theorem load_client_running (h : load parseIp loadFromFile args = .ok config)
    (hmode : config.mode = .client) :
    ∃ client, config.client = some client ∧ client.running.servers ≠ [] ∧
      0 < client.running.sessionTimeout := by
  obtain ⟨yaml, -, ⟨built, client, -, -, hvalid, rfl⟩ | ⟨_, _, -, -, -, rfl⟩⟩ := load_eq_ok.mp h
  · obtain ⟨-, hservers, -, rfl⟩ := ClientConfig.validate_eq_ok.mp hvalid
    exact ⟨_, rfl, hservers, orDefault_pos built.sessionTimeout⟩
  · exact absurd hmode (by simp)

/-- **A loaded server** has a window and a timeout. -/
theorem load_server_running (h : load parseIp loadFromFile args = .ok config)
    (hmode : config.mode = .server) :
    ∃ server, config.server = some server ∧ ∃ hwindow : 1 ≤ server.dedupWindow,
      0 < (server.running hwindow).sessionTimeout := by
  obtain ⟨yaml, -, ⟨_, _, -, -, -, rfl⟩ | ⟨built, server, -, -, hvalid, rfl⟩⟩ := load_eq_ok.mp h
  · exact absurd hmode (by simp)
  · obtain ⟨-, -, rfl⟩ := ServerConfig.validate_eq_ok.mp hvalid
    refine ⟨_, rfl, ?_, orDefault_pos built.sessionTimeout⟩
    show 1 ≤ if built.dedupWindow = 0 then defaultDedupWindow else built.dedupWindow
    by_cases hzero : built.dedupWindow = 0
    · rw [if_pos hzero]
      decide
    · rw [if_neg hzero]
      omega

end Fproxy.Config
