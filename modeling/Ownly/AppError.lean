namespace Ownly

-- backend/src/error.rs: the errors the modelled handlers answer with.
inductive AppError where
  | database (message : String)
  | notFound
  | forbidden (message : String)
  | badRequest (message : String)
  | rateLimited (retryAfterSecs : Nat)
  | conflict (message : String)
  | payloadTooLarge (message : String)
  | internal (message : String)
  | storage (message : String)
  deriving DecidableEq, Repr

end Ownly
