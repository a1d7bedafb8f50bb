import GridSecurity.Interceptor
import GridSecurity.Peer.Address
import GridSecurity.Peer.Session

/-!
# Peers of secured connections

After the handshake of a secured connection its peer is described by the
certificates it presented, its address and a fresh session identifier.
-/

namespace GridSecurity

/-- A secured connection as far as its peer is concerned. -/
structure Connection where
  isHandshaking : Bool
  peerCertificates : Option (List Octets)

/-- The peer of a secured connection. -/
structure PeerInfo where
  certificates : Option (List Octets)
  address : SocketAddress
  sessionId : String

namespace PeerInfo

/-- The peer with a session identifier made of sixteen random octets. -/
def new (certificates : Option (List Octets)) (address : SocketAddress)
    (random : Octets) : PeerInfo :=
  ⟨certificates, address, SessionId.ofRandom random⟩

/-- The peer of a connection whose handshake is complete. -/
def ofConnection (connection : Connection) (address : SocketAddress)
    (random : Octets) : Except SecurityError PeerInfo :=
  if connection.isHandshaking then .error (.peerCertificates .handshakePending)
  else .ok (new connection.peerCertificates address random)

/-- What an interceptor learns of the peer. -/
def toSource (peer : PeerInfo) : PeerSource where
  certificates := .ok peer.certificates
  remoteAddress := some peer.address.text
  sessionId := some peer.sessionId

end PeerInfo

end GridSecurity
