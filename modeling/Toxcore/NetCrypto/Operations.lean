import Toxcore.NetCrypto.Receiving

/-!
# The operations on `Net_Crypto`

What the application and the network can make `Net_Crypto` do. The callbacks an operation runs are
given with it, and may themselves run operations.
-/

namespace Toxcore

open ByteStrings

/-- The operations on `Net_Crypto`, with what each call observes, and the steps of the application. -/
inductive Operation (α : Type) where
  | newCryptoConnection (env : Env) (realPublicKey dhtPublicKey : PublicKey)
  | acceptCryptoConnection (env : Env) (nC : NewConnection)
  | setDirectIpPort (env : Env) (id : ℕ) (ipPort : IpPort) (connected : Bool)
  | cryptoConnectionAddSource (env : Env) (id : ℕ) (source : IpPort)
  | handleNewConnectionHandshake (env : Env) (source : IpPort) (data : Bytes)
  | handlePacketConnection (env : Env) (id : ℕ) (packet : Bytes) (udp : Bool)
  | udpHandlePacket (env : Env) (source : IpPort) (packet : Bytes)
  | cryptoKill (env : Env) (id : ℕ)
  | application (f : α → α)

/-- The world after an operation. -/
def Operation.exec {α : Type} (sodium : Sodium) (callbacks : Callbacks α) (op : Operation α) (w : World α) :
    World α :=
  match op with
  | .newCryptoConnection env realPublicKey dhtPublicKey =>
    { w with net := (w.net.newCryptoConnection sodium env realPublicKey dhtPublicKey).2 }
  | .acceptCryptoConnection env nC => { w with net := (w.net.acceptCryptoConnection sodium env nC).2 }
  | .setDirectIpPort env id ipPort connected => { w with net := (w.net.setDirectIpPort env id ipPort connected).2 }
  | .cryptoConnectionAddSource env id source => { w with net := (w.net.cryptoConnectionAddSource env id source).2 }
  | .handleNewConnectionHandshake env source data =>
    (NetCrypto.handleNewConnectionHandshake sodium callbacks env w source data).2
  | .handlePacketConnection env id packet udp =>
    (NetCrypto.handlePacketConnection sodium callbacks env w id packet udp).2
  | .udpHandlePacket env source packet => (NetCrypto.udpHandlePacket sodium callbacks env w source packet).2
  | .cryptoKill env id => { w with net := (w.net.cryptoKill sodium env id).2 }
  | .application f => { w with app := f w.app }

/-- Callbacks that are not set change nothing. -/
theorem Callbacks.unset_calls {α : Type} {u v : World α} (h : Callbacks.unset.Calls u v) : v = u := by
  cases h <;> rfl

end Toxcore
