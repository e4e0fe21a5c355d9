import Snmpio.Ber.Writer.Canonical
import Snmpio.Message.Encoding
import Snmpio.Client.WalkSafety
import Snmpio.Message.Reencoding
import Snmpio.Client.Cancelling
import Snmpio.Client.Operations
import Snmpio.Client.Lookups
import Snmpio.Client.Stopped
import Snmpio.Client.Blame
import Snmpio.Message.Verification
import Snmpio.Ber.Reader.Programs
import Snmpio.Client.Healing
import Snmpio.Message.Outcomes
import Snmpio.Ber.Writer.Programs
import Snmpio.Core.OidText
import Snmpio.Client.WalkTermination
import Snmpio.Message.Salts
import Snmpio.Client.KeyCaching
import Snmpio.Client.Traffic
import Snmpio.Client.Deadlines
import Snmpio.Client.Wire
import Snmpio.Client.WalkListing
