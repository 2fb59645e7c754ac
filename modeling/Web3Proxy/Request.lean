import Mathlib.Logic.Function.Basic

/-! Requests as `Web3ProxyApp::proxy_web3_rpc_request` reads them: the arm its method name takes
and the cache key `get_cached_response` builds. -/

namespace Web3Proxy

/-- A block hash (`ethers::H256`). -/
abbrev H256 := BitVec 256

/-- Modelled from the spec: `jsonrpc::JsonRpcRequest` is not among the sources. These are the
fields `app.rs` reads; `id` and `params` are the raw JSON text of their `Box<RawValue>`. -/
structure JsonRpcRequest where
  id : String
  method : String
  params : Option String
  deriving DecidableEq, Repr

/-- `type CacheKey = (Option<H256>, String, Option<String>)`. -/
abbrev CacheKey := Option H256 × String × Option String

/-- The key `get_cached_response` builds from the head hash it has just read. -/
def cacheKey (head : H256) (request : JsonRpcRequest) : CacheKey :=
  (some head, request.method, request.params)

/-- The names of the first arm of the method `match` of `proxy_web3_rpc_request`. -/
def forbiddenMethods : List String :=
  ["admin_addPeer", "admin_datadir", "admin_startRPC", "admin_startWS", "admin_stopRPC",
    "admin_stopWS", "debug_chaindbCompact", "debug_freezeClient", "debug_goTrace",
    "debug_mutexProfile", "debug_setBlockProfileRate", "debug_setGCPercent", "debug_setHead",
    "debug_setMutexProfileFraction", "debug_standardTraceBlockToFile",
    "debug_standardTraceBadBlockToFile", "debug_startCPUProfile", "debug_startGoTrace",
    "debug_stopCPUProfile", "debug_stopGoTrace", "debug_writeBlockProfile",
    "debug_writeMemProfile", "debug_writeMutexProfile", "les_addBalance", "les_setClientParams",
    "les_setDefaultParams", "miner_setExtra", "miner_setGasPrice", "miner_start", "miner_stop",
    "miner_setEtherbase", "miner_setGasLimit", "personal_importRawKey", "personal_listAccounts",
    "personal_lockAccount", "personal_newAccount", "personal_unlockAccount",
    "personal_sendTransaction", "personal_sign", "personal_ecRecover"]

/-- The three arms of the method `match` of `proxy_web3_rpc_request`. -/
inductive Route
  | unimplemented
  | sendRawTransaction
  | cached
  deriving DecidableEq, Repr

def route (method : String) : Route :=
  if method ∈ forbiddenMethods then .unimplemented
  else if method = "eth_sendRawTransaction" then .sendRawTransaction
  else .cached

/-- An upstream send: `private_rpcs.try_send_all_upstream_servers` or
`balanced_rpcs.try_send_best_upstream_server`. -/
inductive Upstream
  | privateSendAll
  | balancedSendBest
  deriving DecidableEq, Repr

/-- The inner `match method` of the cached arm, after the in-flight check. -/
def cachedUpstream (method : String) : Upstream :=
  if method = "eth_getTransactionByHash" ∨ method = "eth_getTransactionReceipt" then
    .privateSendAll
  else .balancedSendBest

example : route "admin_peers" = .cached := by decide

end Web3Proxy
