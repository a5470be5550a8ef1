import TorMarketplace.Services.Orders

/-!
# Chat

`services/chat.rs`: the chat blob of an order row.
-/

namespace TorMarketplace

open Encoding Interleave Prog

structure SendMessageRequest where
  /-- Base64. -/
  chatEncryptedBlob : String
  transitionSignature : String
  nonce : String
  deriving DecidableEq

structure ChatResponse where
  orderId : String
  chatEncryptedBlob : Option String
  version : Int
  deriving DecidableEq

/-- `MAX_CHAT_BLOB_BYTES`. -/
def maxChatBlobBytes : Nat := 256 * 1024

/-- `get_chat`: version and blob come from two statements. -/
def getChat (orderId : String) : Program ChatResponse := do
  let idBytes ← orFail (hexDecode orderId) (badRequest "Invalid order_id")
  let row ← exec (.selectOrder idBytes)
  let row ← orFail row dbError
  match row with
  | some row => do
    let blob ← exec (.selectOrder idBytes)
    let blob ← orFail blob dbError
    let chatBlob := blob.bind Order.chatEncryptedBlob
    pure ⟨orderId, chatBlob.map base64Encode, row.version⟩
  | none => pure ⟨orderId, none, 0⟩

def updateChat (orderId : String) (req : SendMessageRequest) : Program ChatResponse := do
  let idBytes ← orFail (hexDecode orderId) (badRequest "Invalid order_id")
  let newBlob ← orFail (base64Decode req.chatEncryptedBlob)
    (badRequest "Invalid chat_encrypted_blob base64")
  ensure (newBlob.length ≤ maxChatBlobBytes) (badRequest "chat_encrypted_blob too large")
  let current ← exec (.selectOrder idBytes)
  let current ← orFail current dbError
  let row ← orFail current (notFound "Order not found")
  let fresh ← exec (.insertNonce .chat (nonceKey orderId req.nonce))
  ensure fresh (conflict "Chat nonce already used")
  let affected ← exec (.updateOrders
    { chatEncryptedBlob := some newBlob, bumpVersion := true, whereId := idBytes,
      whereVersion := some row.version })
  let affected ← orFail affected dbError
  ensure (affected ≠ 0) (conflict "Order was modified by another request")
  pure ⟨orderId, some req.chatEncryptedBlob, row.version + 1⟩

end TorMarketplace
