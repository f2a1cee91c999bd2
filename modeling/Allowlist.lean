import Allowlist.Go.Strings
import Allowlist.Go.Map
import Allowlist.Net.IP
import Allowlist.Net.Parse
import Allowlist.Net.Digits
import Allowlist.Net.PrintIPv6
import Allowlist.Net.IPRoundTrip
import Allowlist.Net.Accepted
import Allowlist.Net.IPNet
import Allowlist.Net.IPNetString
import Allowlist.Net.CIDRRoundTrip
import Allowlist.Net.SplitHostPort
import Allowlist.Common
import Allowlist.Host.Basic
import Allowlist.Host.RoundTrip
import Allowlist.Host.Refinement
import Allowlist.Network.BasicNet
import Allowlist.Network.Invariant
import Allowlist.Network.Remove
import Allowlist.Network.Concurrent
import Allowlist.Network.RoundTrip
import Allowlist.Unmarshal
import Allowlist.Handler
import Allowlist.Example
import Allowlist.Server
