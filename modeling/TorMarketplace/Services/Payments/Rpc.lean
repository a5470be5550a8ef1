import TorMarketplace.Error
import TorMarketplace.Lib.Run
import TorMarketplace.Lib.Serde

/-!
# JSON-RPC clients

`rpc_call` of `services/payments/xmr.rs` and `btc.rs`, which differ in the name in their errors. A
client reaches a node through `send` and its own mutexes through `memory` and `remember`; the delays of
a request are left out. A reply is a `serde_json::Value`: what does not arrive, or is no JSON, is
`none`. The body that `send` stands for is `padJsonBody` of `rpcBody`, with the client's next number.
-/

namespace TorMarketplace

open Encoding Interleave Json Prog Serde

/-- A call of a client that remembers an `S`. -/
inductive RpcCall (S : Type) where
  | send (method : String) (params : Value)
  | memory
  | remember (s : S)

/-- The type of a reply. -/
abbrev RpcCall.Ans {S : Type} : RpcCall S → Type
  | .send .. => Option Value
  | .memory => S
  | .remember _ => Unit

abbrev Rpc (S : Type) : Interface := ⟨RpcCall S, RpcCall.Ans⟩

/-- An `async fn` of a client. -/
abbrev NodeClient (S α : Type) := Prog (Rpc S) Failure α

variable {S : Type}

def rpcError (client text : String) : Failure := .worker (client ++ " RPC " ++ text)

/-- `rpc_call`, up to the `result` of the reply. -/
def rpcCall (client method : String) (params : Value) : NodeClient S Value := do
  let json ← call (I := Rpc S) (.send method params)
  let json ← orFail json (rpcError client "request failed")
  match member json "error" with
  | none => pure (index json "result")
  | some .null => pure (index json "result")
  | some _ => fail (rpcError client "error")

/-- A reply without an error. -/
def ErrorFree (json : Value) : Prop := member json "error" = none ∨ member json "error" = some .null

/-- What comes of a reply. -/
theorem spec_rpcCall {may : (c : (Rpc S).Call) → (Rpc S).Ans c → Prop}
    {Q : List (Reply (Rpc S)) → (Rpc S).Call → Prop}
    {R : List (Reply (Rpc S)) → Except Failure Value → Prop} {past : List (Reply (Rpc S))}
    {client method : String} {params : Value} (hsend : Q past (.send method params))
    (hresult : ∀ json, may (.send method params) (some json) → ErrorFree json →
      R (past ++ [⟨.send method params, some json⟩]) (.ok (index json "result")))
    (hnone : may (.send method params) none →
      R (past ++ [⟨.send method params, none⟩]) (.error (rpcError client "request failed")))
    (herror : ∀ json, may (.send method params) (some json) → ¬ ErrorFree json →
      R (past ++ [⟨.send method params, some json⟩]) (.error (rpcError client "error"))) :
    Spec may Q R past (rpcCall client method params) := by
  refine ⟨hsend, fun json hmay => ?_⟩
  cases json with
  | none => exact hnone hmay
  | some json =>
    change Spec _ _ _ _ (match member json "error" with
      | none => pure (index json "result")
      | some .null => pure (index json "result")
      | some _ => fail (rpcError client "error") : NodeClient S Value)
    split
    · rename_i hfree
      exact hresult json hmay (.inl hfree)
    · rename_i hfree
      exact hresult json hmay (.inr hfree)
    · rename_i e hnull he
      refine herror json hmay ?_
      rintro (hfree | hfree)
      · exact absurd (he.symm.trans hfree) (by simp)
      · exact hnull (Option.some.inj (he.symm.trans hfree))

/-- A result arrives in a reply. -/
theorem rpcCall_spec {may : (c : (Rpc S).Call) → (Rpc S).Ans c → Prop}
    {Q : List (Reply (Rpc S)) → (Rpc S).Call → Prop} {past : List (Reply (Rpc S))}
    {client method : String} {params : Value} (hsend : Q past (.send method params)) :
    Spec may Q (OnOk fun past' result => ∃ json,
      past' = past ++ [⟨.send method params, some json⟩] ∧ may (.send method params) (some json) ∧
        ErrorFree json ∧ result = index json "result") past (rpcCall client method params) :=
  spec_rpcCall hsend (fun json hmay hfree => ⟨json, rfl, hmay, hfree, rfl⟩) (fun _ => trivial)
    fun _ _ _ => trivial

/-- **A result arrives**, in an execution. -/
theorem yields_rpcCall {may : (c : (Rpc S).Call) → (Rpc S).Ans c → Prop} {past : List (Reply (Rpc S))}
    {client method : String} {params json : Value} (herror : ErrorFree json)
    (hmay : may (.send method params) (some json)) :
    Yields may past (rpcCall client method params) (past ++ [⟨.send method params, some json⟩])
      (.ok (index json "result")) := by
  refine .step (a := some json) hmay ?_
  change Yields _ _ (match member json "error" with
    | none => pure (index json "result")
    | some .null => pure (index json "result")
    | some _ => fail (rpcError client "error") : NodeClient S Value) _ _
  rcases herror with herror | herror <;> rw [herror] <;> exact .ret

/-- A reply with a result. -/
def reply (result : Value) : Value := object [("result", result)]

theorem errorFree_reply (result : Value) : ErrorFree (reply result) :=
  .inl (member_object_none (by simp))

theorem index_reply (result : Value) : index (reply result) "result" = result := by
  rw [reply, index, member_object (by simp) List.mem_cons_self, Option.getD_some]

/-! ## The body of a request -/

/-- `PADDED_BODY_SIZE`. -/
def paddedBodySize : Nat := 4096

/-- The body of request number `id`. The members of a `serde_json::Map` are sorted by name. -/
def rpcBody (id : UInt64) (method : String) (params : Value) : Value :=
  object [("id", .int id.toNat), ("jsonrpc", ofString "2.0"), ("method", ofString method),
    ("params", params)]

/-- `pad_json_body`, which both clients have. `debugAssertions` is the profile it is built with; a
failed assertion is `none`. -/
def padJsonBody (debugAssertions : Bool) (body : Value) : Option Bytes :=
  let bodyStr := Json.print body
  if debugAssertions ∧ bodyStr.getLast? ≠ some 125 then none
  else
    let withoutClose := bodyStr.dropLast
    let remaining := paddedBodySize - (withoutClose.length + 1)
    let padded := withoutClose ++ (List.replicate remaining 32 ++ [125])
    if debugAssertions ∧ padded.length ≠ paddedBodySize then none else some padded

/-! ## Nodes -/

/-- What a node replies to each request. -/
abbrev Node := String → Value → Option Value

/-- One client and a node. -/
def Node.machine (node : Node) : Machine (Rpc S) S Unit where
  answer
    | .send method params, _, s => some (node method params, s)
    | .memory, _, s => some (s, s)
    | .remember s', _, _ => some ((), s')

/-- The result of `x` at a node, and what the client remembers then. -/
def NodeClient.run {α : Type} (x : NodeClient S α) (node : Node) (s : S) :
    Option (Except Failure α × S) :=
  node.machine.solo () x s

/-- **A result arrives** from a node that replies with it. -/
theorem rpcCall_run {node : Node} {client method : String} {params result : Value} {s : S}
    (h : node method params = some (reply result)) :
    (rpcCall client method params).run node s = some (.ok result, s) := by
  have hsend : node.machine.answer (.send method params) () s =
      some (some (reply result), s) := by
    rw [← h]
    rfl
  rw [NodeClient.run, rpcCall, solo_bind_ok (solo_call hsend)]
  change node.machine.solo () (match member (reply result) "error" with
    | none => pure (index (reply result) "result")
    | some .null => pure (index (reply result) "result")
    | some _ => fail (rpcError client "error") : NodeClient S Value) s = _
  rw [show member (reply result) "error" = none from member_object_none (by simp), index_reply]
  rfl

end TorMarketplace
