import BtClock.Arith.Epochs
import BtClock.Arith.RoundUp
import BtClock.Arith.Strtod
import BtClock.Data.Convergence
import BtClock.Data.PollTask
import BtClock.Data.SocketSources
import BtClock.Data.TipWatchdog
import BtClock.Dnd.OneState
import BtClock.EventLoop.Bringup
import BtClock.EventLoop.Buttons
import BtClock.EventLoop.Notice
import BtClock.EventLoop.OtaScreen
import BtClock.Fonts.GzipHeader
import BtClock.Fonts.Landscape
import BtClock.Format.NumberSuffix
import BtClock.Format.Supply
import BtClock.Frontlight.Mute
import BtClock.Frontlight.Stagger
import BtClock.Leds.Controller
import BtClock.Leds.Resting
import BtClock.Nostr.Accepted
import BtClock.Nostr.Authenticity
import BtClock.Nostr.Canonical
import BtClock.Nostr.EventEnvelope
import BtClock.Nostr.HmacStandard
import BtClock.Nostr.NewestWins
import BtClock.Nostr.Nip04
import BtClock.Nostr.PaddedLength
import BtClock.Nostr.RequestFrame
import BtClock.Nostr.Sha256Standard
import BtClock.Nostr.SourceRestart
import BtClock.Nostr.ZapIdContainers
import BtClock.Nostr.ZapRotation
import BtClock.Nostr.ZapRuns
import BtClock.Nwc.BalanceCache
import BtClock.Nwc.EventFrame
import BtClock.Nwc.ExactBalance
import BtClock.Nwc.FailedRequest
import BtClock.Nwc.LifeCycle
import BtClock.Nwc.NotificationQueue
import BtClock.Nwc.PairingGrammar
import BtClock.Nwc.Replay
import BtClock.Nwc.Signing
import BtClock.Nwc.TwinNotifications
import BtClock.Ota.AutoUpdate
import BtClock.Ota.PushOutcome
import BtClock.Proxy.ConnectRequest
import BtClock.Proxy.Negotiation
import BtClock.Proxy.ReplyPrefixes
import BtClock.Proxy.Transport
import BtClock.Reading.Growing
import BtClock.Reading.InPlace
import BtClock.Reading.Packed
import BtClock.Screen.Carousel
import BtClock.Screen.Cycle
import BtClock.Screen.FoldedPoint
import BtClock.Screen.Freshness
import BtClock.Screen.Layout
import BtClock.Screen.PartialRepaint
import BtClock.Screen.SatsPerCurrency
import BtClock.Screen.SettingsPage
import BtClock.Screen.Settle
import BtClock.Settings.Atomic
import BtClock.Settings.InsideSchema
import BtClock.Settings.RelayBudget
import BtClock.Settings.Reorder
import BtClock.Settings.SaveBack
import BtClock.Settings.Secrets
import BtClock.Transition.Repaint
import BtClock.Transition.Script
import BtClock.Webserver.AuthGate
import BtClock.Webserver.DnsHijack
import BtClock.Webserver.Preview
import BtClock.Webserver.Provisioning
import BtClock.Webserver.PushSteps
import BtClock.Webserver.ShowMailbox
import BtClock.Webserver.SseServer
import BtClock.Webserver.StaticFiles
import BtClock.Webserver.StoredLists
import BtClock.Webserver.UploadFirmware
import BtClock.Webserver.UploadWebui
import BtClock.Webserver.UrlDecode
import BtClock.Wifi.ScanCache
import BtClock.Wifi.TryConnect
