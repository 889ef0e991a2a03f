import StoreForward.Proofs.Rest

/-!
# What an operation is to a worker

`World.Effect` says what an operation does to a world. To one of the workers there are
only four things that it can be. It boots the worker; it polls it; it makes it abandon
its step; or it leaves it where it stands, possibly with another crew, or drops it, and
in this case nothing happens that the worker has caused. A property of one worker that
is not kept by turns alone, since it depends on how polls end or on what is abandoned,
is proved by these cases, and by induction on the operations.

## Main definitions

* `World.Concern` — what an operation can be to a worker.

## Main results

* `World.polled` — what an operation does that polls a worker, and where it leaves it.
* `World.concern` — there is nothing else that an operation can be to a worker.
-/

namespace StoreForward

variable {cap : Nat} {ε : Type} [Crew ε]

namespace World

/-- What an operation with its outcome can be to a worker. -/
inductive Concern (w : World cap ε) (id : Nat) : Op ε → Outcome cap ε → Prop where
  /-- It is left where it stands, or dropped. -/
  | spared {op : Op ε} {o : Outcome cap ε} (silent : own id o.entries = [])
      (born : w.posts.length ≤ o.world.posts.length)
      (stays : ∀ post, o.world.posts[id]? = some (some post) → w.posts[id]? = some (some post)) :
      Concern w id op o
  | booted (settings : Settings) (crew : ε) {o : Outcome cap ε} (new : w.posts.length ≤ id)
      (happened : own id o.entries = [.booted settings])
      (posts : o.world.posts = w.posts ++ [some ⟨.boot settings, .outset⟩]) :
      Concern w id (.boot settings crew) o
  | polled {op : Op ε} {s : Station ε} {mode : Mode} (here : w.station? id = some s)
      (polls : op.Polls id s mode) : Concern w id op (w.apply op)
  | cancelled {s : Station ε} {mode : Mode} {suspension : Suspension} {o : Outcome cap ε}
      (here : w.station? id = some s) (held : s.held = some (mode, suspension))
      (silent : o.entries = []) (posts : o.world.posts = w.posts.set id (some ⟨s.worker, .outset⟩)) :
      Concern w id (.cancel id) o

/-- An operation that polls a worker: how it drives the worker, and where it leaves it. -/
theorem polled {w : World cap ε} {op : Op ε} {id : Nat} {s : Station ε} {mode : Mode}
    (here : w.station? id = some s) (polls : op.Polls id s mode) :
    ∃ es t q progress, (w.site s).Driven mode s.post.point es t q ∧
      w.apply op = w.absorb id mode
        ⟨(t.move q).site, op.announced ++ (es ++ (t.move q).events), progress⟩ ∧
      Ends mode (t.move q).site (t.move q).verdict progress ∧
      (w.apply op).entries = entries (.worker id) (op.announced ++ (es ++ (t.move q).events)) ∧
      (w.apply op).world.posts =
        w.posts.set id (some ⟨(t.move q).site.worker, (t.move q).verdict.next⟩) := by
  obtain ⟨es, t, q, progress, driven, applied, ends⟩ := apply_driven here polls
  refine ⟨es, t, q, progress, driven, applied, ends, congrArg _ applied, ?_⟩
  have posts := congrArg Moment.posts (w.moment_absorb id mode
    ⟨(t.move q).site, op.announced ++ (es ++ (t.move q).events), progress⟩ [])
  rw [← applied] at posts
  rw [← ends.next_eq]
  exact posts

/-- There is nothing else that an operation can be to a worker. -/
theorem concern (w : World cap ε) (op : Op ε) (id : Nat) : w.Concern id op (w.apply op) := by
  -- what is put in another place
  have elsewhere {v : World cap ε} {other : Nat} {place : Option Post}
      (posts : v.posts = w.posts.set other place) (differ : other ≠ id) :
      w.posts.length ≤ v.posts.length ∧
        ∀ post, v.posts[id]? = some (some post) → w.posts[id]? = some (some post) := by
    refine ⟨by simp [posts], fun post there => ?_⟩
    rwa [posts, List.getElem?_set_ne differ] at there
  have effect := w.effect op
  generalize applied : w.apply op = o at effect ⊢
  cases effect with
  | offer _ | nudge =>
      exact .spared (own_entries_producer id _) (Nat.le_refl _) fun _ there => there
  | boot settings crew =>
      have posts : World.posts ⟨{ w.link with status := { w.link.status with phase := .start } },
          w.stations ++ [some ⟨.boot settings, crew, none⟩]⟩ =
            w.posts ++ [some ⟨.boot settings, .outset⟩] := List.map_append
      have count : w.posts.length = w.stations.length := List.length_map _
      by_cases new : id = w.stations.length
      · refine .booted settings crew (Nat.le_of_eq (count.trans new.symm)) ?_ posts
        rw [new]
        exact own_entries_self _ _
      · refine .spared (own_entries_worker_of_ne new _) ?_ fun post there => ?_
        · rw [posts, List.length_append]
          exact Nat.le_add_right _ _
        · have old : id < w.posts.length := by
            have inside := (List.getElem?_eq_some_iff.mp there).1
            rw [posts, List.length_append, List.length_singleton] at inside
            omega
          rwa [posts, List.getElem?_append_left old] at there
  | @polls _ other s mode here polls =>
      by_cases same : other = id
      · subst same
        exact .polled here polls
      · obtain ⟨_, _, _, _, _, _, _, happened, posts⟩ := polled here polls
        obtain ⟨born, stays⟩ := elsewhere posts same
        refine .spared ?_ born stays
        rw [happened]
        exact own_entries_worker_of_ne (Ne.symm same) _
  | @cancel other s held here waits =>
      by_cases same : other = id
      · subst same
        exact .cancelled here waits rfl (w.posts_place other _)
      · obtain ⟨born, stays⟩ := elsewhere (w.posts_place other (some { s with held := none })) same
        exact .spared rfl born stays
  | @amend other s here change =>
      have posts := w.posts_place other (some { s with crew := change s.crew })
      refine .spared rfl (by simp [posts]) fun post there => ?_
      rw [posts] at there
      rcases post_of_set there with ⟨rfl, same⟩ | ⟨_, before⟩
      · have stood : w.posts[other]? = some (some s.post) := posts_of_station? here
        rw [← Option.some.inj same]
        exact stood
      · exact before
  | @drop other _ _ =>
      have posts := w.posts_place other none
      refine .spared rfl (by simp [posts]) fun post there => ?_
      rw [posts] at there
      rcases post_of_set there with ⟨_, gone⟩ | ⟨_, before⟩
      · cases gone
      · exact before
  | refused _ _ _ => exact .spared rfl (Nat.le_refl _) fun _ there => there

end World

end StoreForward
