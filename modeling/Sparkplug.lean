import Sparkplug.Topic.Addressable
import Sparkplug.Topic.RoundTrip
import Sparkplug.Topic.Parsing
import Sparkplug.Seq.Isolation
import Sparkplug.Delivery.Handover
import Sparkplug.Delivery.Saturation
import Sparkplug.Delivery.Waking
import Sparkplug.Client.Invisible
import Sparkplug.Client.Startup
import Sparkplug.Client.Untracked
import Sparkplug.Client.Birth
import Sparkplug.Client.Interference
import Sparkplug.Client.Wire
import Sparkplug.Client.Closing
import Sparkplug.Client.Content
import Sparkplug.Client.Host
import Sparkplug.Client.Repeats
import Sparkplug.Client.Shortfall
