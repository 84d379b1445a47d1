import SmartParking.Async.Program

-- Functions over some ports, with the calls carried out by functions over other ports.
namespace Async.Program

variable {Call Port : Type} {Answer : Call → Type} {PortAnswer : Port → Type} {Err α β : Type}

def expand (realise : (call : Call) → Program Port PortAnswer Err (Answer call)) :
    Program Call Answer Err α → Program Port PortAnswer Err α
  | .done result => .done result
  | .await call next => (realise call).settle.bind fun answer => (next answer).expand realise

theorem settle_bind_done (p : Program Call Answer Err α) : p.settle.bind .done = p := by
  induction p with
  | done result => rfl
  | await call next ih => simp only [settle, bind, ih]

theorem settle_bind_tryCatch (p : Program Call Answer Err α)
    (f : Except Err α → Program Call Answer Err β) (handler : Err → Program Call Answer Err β) :
    (p.settle.bind f).tryCatch handler = p.settle.bind fun result => (f result).tryCatch handler := by
  induction p with
  | done result => rfl
  | await call next ih => simp only [settle, bind, tryCatch, ih]

variable {realise : (call : Call) → Program Port PortAnswer Err (Answer call)}

@[simp] theorem expand_perform (call : Call) :
    (perform call : Program Call Answer Err _).expand realise = realise call :=
  settle_bind_done (realise call)

@[simp] theorem expand_pure (value : α) :
    (pure value : Program Call Answer Err α).expand realise = pure value := rfl

@[simp] theorem expand_bind (p : Program Call Answer Err α) (f : α → Program Call Answer Err β) :
    (p >>= f).expand realise = p.expand realise >>= fun value => (f value).expand realise := by
  change (p.bind f).expand realise = (p.expand realise).bind _
  induction p with
  | done result => cases result <;> rfl
  | await call next ih => simp only [bind, expand, bind_assoc, ih]

@[simp] theorem expand_tryCatch (p : Program Call Answer Err α)
    (handler : Err → Program Call Answer Err α) :
    (p.tryCatch handler).expand realise =
      (p.expand realise).tryCatch fun err => (handler err).expand realise := by
  induction p with
  | done result => cases result <;> rfl
  | await call next ih => simp only [tryCatch, expand, settle_bind_tryCatch, ih]

end Async.Program
