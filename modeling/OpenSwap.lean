import OpenSwap.Taker.Exchange
import OpenSwap.Maker.Removal
import OpenSwap.Taker.LightningClaims
import OpenSwap.Maker.Desk
import OpenSwap.Maker.CountedRun
import OpenSwap.Blocklist
import OpenSwap.Taker.OfferBans
import OpenSwap.Lightning.HoldWindow
import OpenSwap.Maker.LightningRefund
import OpenSwap.WatchTower.CoreWatch
import OpenSwap.Wallet.BuiltContracts
import OpenSwap.Taker.Settlement
import OpenSwap.Maker.MinSwap
import OpenSwap.Maker.AdmissionPlan
import OpenSwap.Taker.SwapSummary
import OpenSwap.Wallet.SelectedCoins
import OpenSwap.Maker.LightningFile
import OpenSwap.Lightning.ShownPreimage
import OpenSwap.Wallet.CacheSync
import OpenSwap.WatchTower.Retries
import OpenSwap.Blockchain.ElectrumCache
import OpenSwap.Maker.ConnectionLimiter
import OpenSwap.WatchTower.MakerAddress
import OpenSwap.WatchTower.NostrCursor
import OpenSwap.Base.Decimal
import OpenSwap.Maker.Framing
import OpenSwap.WatchTower.Announcements
