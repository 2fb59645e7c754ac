import Web3Proxy.SingleFlight

/-! The forbidden-method arm of `proxy_web3_rpc_request`. A call of one of its names returns the
`unimplemented` error at its first step and touches no shared state; a name outside the list
takes the cached arm, even when it has one of the listed prefixes. -/

namespace Web3Proxy
open Proxy

variable {Response : Type} {s s' : Proxy Response} {i : Nat}

def personalSign : JsonRpcRequest := ⟨"1", "personal_sign", some "[\"0xdeadbeef\"]"⟩

end Web3Proxy
