import WarrenSdk.Bolthole.Complement
import WarrenSdk.Bolthole.Limits
import WarrenSdk.Bolthole.Generations
import WarrenSdk.Bolthole.Napt.Isolation
import WarrenSdk.Bolthole.Napt.Filtering
import WarrenSdk.Bolthole.Napt.Forwards
import WarrenSdk.Bolthole.Napt.Conservation
import WarrenSdk.Bolthole.Napt.RoundTrip
import WarrenSdk.Bolthole.Responder.Verdicts
import WarrenSdk.Bolthole.Device.Reloads
import WarrenSdk.Bolthole.Device.Uplink
import WarrenSdk.Bolthole.Device.Ipv6
import WarrenSdk.Bolthole.Device.Proving
import WarrenSdk.Net.Http.Delivery
import WarrenSdk.Net.Http.Answer
import WarrenSdk.Net.Netstack.Closing
import WarrenSdk.Net.Netstack.Handshakes
import WarrenSdk.Net.Netstack.Lookups
import WarrenSdk.Net.PortForward.WholeCycles
import WarrenSdk.Net.Proxy.Unanswered
import WarrenSdk.Api.Revocation
import WarrenSdk.Api.Stock
import WarrenSdk.Api.Leases
import WarrenSdk.Sdk.Entitlements
import WarrenSdk.Sdk.PortFollow
import WarrenSdk.Sdk.HostRoute
import WarrenSdk.Sdk.Store
import WarrenSdk.Discovery.Selector
import WarrenSdk.Headless.Health
import WarrenSdk.Bolthole.Device.Routes
import WarrenSdk.Bolthole.PortRuns
import WarrenSdk.Net.Bond
