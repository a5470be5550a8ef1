/-!
# Errors

`AppError` of `error.rs`, with the texts the handlers give it. Only the server's log sees an error's
kind; every error is answered with status 500 and the body `{"error":"error"}`.
-/

namespace TorMarketplace

inductive AppError where
  | authFailed (text : String)
  | notFound (text : String)
  | badRequest (text : String)
  | forbidden (text : String)
  | conflict (text : String)
  | internal (text : String)
  | torRequired
  | rateLimited
  deriving Repr, DecidableEq

/-- How a program ends that does not succeed. -/
inductive Failure where
  | app (e : AppError)
  /-- A rejection by a layer or an extractor: rate limit, validation, routing, body. -/
  | rejected
  /-- An `anyhow` error of the worker, or the end of its process. -/
  | worker (text : String)
  deriving Repr, DecidableEq

def authFailed (text : String) : Failure := .app (.authFailed text)

def notFound (text : String) : Failure := .app (.notFound text)

def badRequest (text : String) : Failure := .app (.badRequest text)

def forbidden (text : String) : Failure := .app (.forbidden text)

def conflict (text : String) : Failure := .app (.conflict text)

def internal (text : String) : Failure := .app (.internal text)

end TorMarketplace
