import Web3Proxy.Request
import Web3Proxy.ResponseCache
import Web3Proxy.Proxy
import Web3Proxy.SingleFlight
import Web3Proxy.HeadEpoch
import Web3Proxy.Forbidden
import Web3Proxy.Config
import Web3Proxy.ConfigReload
import Web3Proxy.PendingTx
import Web3Proxy.Balance
import Web3Proxy.Json
import Web3Proxy.CacheBound
import Web3Proxy.Subscribe
import Web3Proxy.NewHeads
import Web3Proxy.Batch
import Web3Proxy.RateLimit
import Web3Proxy.Progress
import Web3Proxy.Sends
import Web3Proxy.UserData
