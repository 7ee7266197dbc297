import DeviceTwin.Files.Disk

/-!
# Plans for files

A plan looks at paths and writes texts, and what it does next may depend on what it
found. A plan only says what is to be done: `Plan.run` carries it out on a disk given
as a value, and a program may carry it out on the disk of its machine.

A plan that writes nothing leaves every disk as it is (`run_disk_of_readOnly`).
-/

namespace DeviceTwin.Files

inductive Plan (α : Type) where
  | done (result : α)
  | look (path : String) (next : Option Entry → Plan α)
  | write (path text : String) (next : Except Obstacle Unit → Plan α)

namespace Plan

variable {α β : Type}

def andThen : Plan α → (α → Plan β) → Plan β
  | done a, f => f a
  | look path next, f => look path fun e => (next e).andThen f
  | write path text next, f => write path text fun r => (next r).andThen f

instance : Monad Plan where
  pure := done
  bind := andThen

@[simp] theorem pure_eq (a : α) : (pure a : Plan α) = done a := rfl

@[simp] theorem done_bind (a : α) (f : α → Plan β) : done a >>= f = f a := rfl

@[simp] theorem look_bind (path : String) (next : Option Entry → Plan α) (f : α → Plan β) :
    look path next >>= f = look path fun e => next e >>= f := rfl

@[simp] theorem write_bind (path text : String) (next : Except Obstacle Unit → Plan α)
    (f : α → Plan β) :
    write path text next >>= f = write path text fun r => next r >>= f := rfl

theorem bind_done (t : Plan α) : t >>= done = t := by
  induction t with
  | done a => rfl
  | look path next ih => simp [ih]
  | write path text next ih => simp [ih]

theorem bind_bind {γ : Type} (t : Plan α) (f : α → Plan β) (g : β → Plan γ) :
    t >>= f >>= g = t >>= fun a => f a >>= g := by
  induction t with
  | done a => rfl
  | look path next ih => simp [ih]
  | write path text next ih => simp [ih]

instance : LawfulMonad Plan :=
  LawfulMonad.mk' Plan (fun t => bind_done t) (fun _ _ => rfl) fun t f g => bind_bind t f g

/-- What stands at a path. -/
def entry (path : String) : Plan (Option Entry) :=
  look path done

/-- Puts a text into a file. -/
def save (path text : String) : Plan (Except Obstacle Unit) :=
  write path text done

/-- Carries a plan out on a disk. -/
def run : Plan α → Disk → α × Disk
  | done a, d => (a, d)
  | look path next, d => (next (d.look path)).run d
  | write path text next, d =>
    match d.write path text with
    | .ok d => (next (.ok ())).run d
    | .error o => (next (.error o)).run d

@[simp] theorem run_done (a : α) (d : Disk) : (done a).run d = (a, d) := rfl

@[simp] theorem run_look (path : String) (next : Option Entry → Plan α) (d : Disk) :
    (look path next).run d = (next (d.look path)).run d := rfl

theorem run_bind (t : Plan α) (f : α → Plan β) (d : Disk) :
    (t >>= f).run d = (f (t.run d).1).run (t.run d).2 := by
  induction t generalizing d with
  | done a => rfl
  | look path next ih => simp [ih]
  | write path text next ih =>
    rw [write_bind, run, run]
    cases d.write path text <;> simp [ih]

@[simp] theorem run_entry (path : String) (d : Disk) :
    (entry path).run d = (d.look path, d) := rfl

/-- A plan that only looks. -/
inductive ReadOnly : Plan α → Prop
  | done (a : α) : ReadOnly (done a)
  | look {path : String} {next : Option Entry → Plan α} (h : ∀ e, ReadOnly (next e)) :
    ReadOnly (look path next)

theorem ReadOnly.bind {t : Plan α} {f : α → Plan β} (ht : ReadOnly t)
    (hf : ∀ a, ReadOnly (f a)) : ReadOnly (t >>= f) := by
  induction ht with
  | done a => exact hf a
  | look _ ih => exact .look ih

theorem readOnly_entry (path : String) : ReadOnly (entry path) :=
  .look fun _ => .done _

theorem run_disk_of_readOnly {t : Plan α} (h : ReadOnly t) (d : Disk) : (t.run d).2 = d := by
  induction h with
  | done a => rfl
  | look _ ih => exact ih _

end Plan

end DeviceTwin.Files
