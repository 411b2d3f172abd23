import NatServer.Server.Repeat
import NatServer.Server.Route
import NatServer.Server.Own
import NatServer.Server.Observed
import NatServer.Server.Malformed
import NatServer.Server.Receive
import NatServer.Server.Rendezvous
import NatServer.Server.Eviction
import NatServer.Server.Dead
import NatServer.Server.Alone
import NatServer.Server.Sweep
import NatServer.Server.Probe
import NatServer.Server.Relay
import NatServer.Server.Streams
import NatServer.Server.Join
import NatServer.Net.Cascade
import NatServer.Net.Crash
import NatServer.Net.Provenance
import NatServer.Net.Verdict
import NatServer.Net.Members
import NatServer.Json.Grammar
import NatServer.Plusaes.Bounds
import NatServer.Plusaes.Ctr
import NatServer.Client.Encrypto
import NatServer.Dispatch.Progress
