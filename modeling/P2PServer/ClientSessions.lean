import P2PServer.ClientFrame

/-! What the client's operations do to its sessions: the state of the session they run
and the messages that reach the application. -/
namespace P2PServer.P2PClient
open ByteStrings ProtoDef Net Codec Crypto Effects

/-- The calls of `on_message`. -/
def messages (outs : List Out) : List (Bytes × UInt8 × Bytes) :=
  outs.filterMap fun
    | .message peer channel data => some (peer, channel, data)
    | _ => none

@[simp] theorem messages_nil : messages [] = [] := rfl

@[simp] theorem messages_append (a b : List Out) : messages (a ++ b) = messages a ++ messages b :=
  List.filterMap_append

/-- A step that leaves sessions, connections and callbacks alone and delivers nothing. -/
structure Sends (s : P2PClient) (r : P2PClient × List Out) : Prop where
  sessions : r.1.sessions = s.sessions
  conns : r.1.conns = s.conns
  callbacks : r.1.callbacks = s.callbacks
  nextSessionId : r.1.nextSessionId = s.nextSessionId
  silent : messages r.2 = []

variable {s : P2PClient}

theorem getTunnelKey_state (peer : Bytes) (s : P2PClient) :
    ∃ keys, (getTunnelKey peer s).2 = { s with tunnel := { s.tunnel with tunnelKeys := keys } } := by
  unfold getTunnelKey
  split
  · exact ⟨s.tunnel.tunnelKeys, rfl⟩
  · split
    · exact ⟨s.tunnel.tunnelKeys, rfl⟩
    · exact ⟨_, rfl⟩

theorem encryptTunnelFrame_state (env : Env) (peer frame : Bytes) (s : P2PClient) :
    ∃ x, (encryptTunnelFrame env peer frame s).2 = { s with tunnel := x } := by
  obtain ⟨keys, hk⟩ := getTunnelKey_state peer s
  unfold encryptTunnelFrame
  split
  · exact ⟨s.tunnel, rfl⟩
  · dsimp only
    split
    · exact ⟨s.tunnel, rfl⟩
    · split
      · rename_i hkey
        rw [hkey] at hk
        exact ⟨_, hk⟩
      · rename_i hkey
        rw [hkey] at hk
        dsimp only at hk
        split
        · exact ⟨_, hk⟩
        · rw [hk]
          exact ⟨_, rfl⟩

theorem decryptTunnelFrame_state (peer : Bytes) (m : Memory) (len : ℕ) (s : P2PClient) :
    ∃ x, (decryptTunnelFrame peer m len s).2 = { s with tunnel := x } := by
  obtain ⟨keys, hk⟩ := getTunnelKey_state peer s
  unfold decryptTunnelFrame
  split
  · exact ⟨s.tunnel, rfl⟩
  · dsimp only
    split
    · exact ⟨s.tunnel, rfl⟩
    · split
      · rename_i hkey
        rw [hkey] at hk
        exact ⟨_, hk⟩
      · rename_i hkey
        rw [hkey] at hk
        split
        · exact ⟨_, hk⟩
        · dsimp only at hk
          rw [hk]
          exact ⟨_, rfl⟩

theorem sendTunnelVia_state (env : Env) (c : Conn) (frame : Bytes) (s : P2PClient) :
    ∃ x, (sendTunnelVia env c frame s).1 = { s with tunnel := x } := by
  unfold sendTunnelVia
  split
  · obtain ⟨x, hx⟩ := encryptTunnelFrame_state env c.peerUuid frame s
    split
    · rename_i he
      rw [he] at hx
      exact ⟨x, (transmit_state env c _ _).trans hx⟩
    · rename_i he
      rw [he] at hx
      exact ⟨x, (transmit_state env c _ _).trans hx⟩
  · exact ⟨s.tunnel, transmit_state env c frame s⟩

def Out.isTraffic : Out → Bool
  | .proto .. | .raw .. | .juice _ (.send _) => true
  | _ => false

theorem transmit_traffic (env : Env) (c : Conn) (tx : Bytes) (s : P2PClient) :
    ∀ o ∈ (transmit env c tx s).2, o.isTraffic = true := by
  intro o ho
  cases transmit_carries env c tx o ho with
  | ice => rfl
  | direct _ => rfl
  | relayed _ => rfl

theorem sendTunnelVia_traffic (env : Env) (c : Conn) (frame : Bytes) (s : P2PClient) :
    ∀ o ∈ (sendTunnelVia env c frame s).2, o.isTraffic = true := by
  unfold sendTunnelVia
  split
  · split <;> exact transmit_traffic env c _ _
  · exact transmit_traffic env c frame s

theorem messages_traffic {outs : List Out} (h : ∀ o ∈ outs, o.isTraffic = true) : messages outs = [] := by
  rw [messages, List.filterMap_eq_nil_iff]
  intro o ho
  have ht := h o ho
  cases o <;> first | rfl | cases ht

theorem decryptTunnelFrame_sends (peer : Bytes) (frame : Memory) (len : ℕ) :
    Sends s ((decryptTunnelFrame peer frame len s).2, []) := by
  obtain ⟨x, hx⟩ := decryptTunnelFrame_state peer frame len s
  rw [hx]
  exact ⟨rfl, rfl, rfl, rfl, rfl⟩

theorem sendTunnelVia_sends (env : Env) (c : Conn) (frame : Bytes) :
    Sends s (sendTunnelVia env c frame s) := by
  obtain ⟨x, hx⟩ := sendTunnelVia_state env c frame s
  have hsilent := messages_traffic (sendTunnelVia_traffic env c frame s)
  constructor <;> first | rw [hx] | exact hsilent

/-- The state with an empty tunnel and without sessions. -/
def outer (s : P2PClient) : P2PClient := { s with tunnel := {}, sessions := ∅, nextSessionId := 1 }

theorem sessionFor_outer (peer : Bytes) (s : P2PClient) : outer (sessionFor peer s).2 = outer s := by
  unfold sessionFor
  split <;> rfl

end P2PServer.P2PClient
