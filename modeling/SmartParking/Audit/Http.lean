import SmartParking.Audit.Consumer
import Mathlib.Algebra.Order.Floor.Semiring
import Mathlib.Data.Rat.Floor

namespace SmartParking.Audit.Http

structure Request where
  method : String
  pathname : String
  authorization : Option String
  limit : Option String
  eventType : Option String

inductive Body (Jsonb : Type) where
  | message (text : String)
  | healthy
  | items (records : List (AuditRecord Jsonb))

structure Response (Jsonb : Type) where
  status : ℕ
  body : Body Jsonb

variable {Jsonb : Type}

-- numberOf is Number(text), where that is finite.
def limitOf (numberOf : String → Option ℚ) : Option String → ℕ
  | none => 50
  | some text =>
      match numberOf text with
      | some requested => (min 100 (max 1 ⌊requested⌋)).toNat
      | none => 50

-- The answer of the server. There are no rows when the database does not answer.
def handle (isAdmin : Option String → Bool) (numberOf : String → Option ℚ)
    (rows : Option (List (AuditRow Jsonb))) (request : Request) : Response Jsonb :=
  if request.method = "GET" ∧ request.pathname = "/health" then ⟨200, .healthy⟩
  else if request.method ≠ "GET" ∨ request.pathname ≠ "/audit/events" then
    ⟨404, .message "Not found"⟩
  else if !isAdmin request.authorization then
    ⟨401, .message "Se requiere un token de administrador."⟩
  else
    match rows with
    | some scan =>
        ⟨200, .items (AuditStore.list scan (limitOf numberOf request.limit) request.eventType)⟩
    | none => ⟨500, .message "No se pudo consultar el historial."⟩

end SmartParking.Audit.Http
