import Deathmatch.Proofs.Logins

/-!
# What handlers owe to the queue

A handler that has logged a session in, or has taken one out that was logged in, owes the queue a
command: the join or the leave of the player. `Passage` is such a change of the table. In every run,
what was submitted and what is still owed are together the commands of all passages, each once
(`Lobby.run_books`), and the world goes by the commands that were submitted, while the table goes by
the passages.

Nothing makes the commands of a slot come in the order of its passages. Where they do, the world
follows the table (`Lobby.run_passages`). A leave that overtakes the join before it leaves a player
behind that nobody plays (`Lobby.run_overtaken`).
-/

namespace Deathmatch

/-! ## Rosters, slot by slot -/

/-- Whether a command has somebody enter the slot or exit from it. -/
def Command.isTurn (slot : UInt8) (command : Command) : Bool :=
  (command.turn? slot).isSome

namespace Roster

variable {r r' : Roster} {slot : UInt8}

theorem reseat_congr (same : r slot = r' slot) (command : Command) :
    command.reseat r slot = command.reseat r' slot := by
  cases command with
  | join | leave =>
    simp only [Command.reseat, Function.update_apply]
    split
    · rfl
    · exact same
  | move | infoChange | damage | acknowledge => exact same

/-- Who sits in a slot depends on the commands of the slot only. -/
theorem after_filter (same : r slot = r' slot) (commands : List Command) :
    r.after commands slot = r'.after (commands.filter (·.isTurn slot)) slot := by
  induction commands generalizing r r' with
  | nil => exact same
  | cons command rest ih =>
    cases turn : command.turn? slot with
    | none =>
      rw [List.filter_cons_of_neg (by rw [Command.isTurn, turn]; exact Bool.false_ne_true)]
      exact ih ((reseat_of_turn?_eq_none turn).trans same)
    | some t =>
      rw [List.filter_cons_of_pos (by rw [Command.isTurn, turn]; rfl)]
      exact ih (reseat_congr same command)

end Roster

/-! ## Passages -/

/-- A change of who is logged in, with the errand that has to submit the command, and the session as
the change found it. -/
structure Passage where
  errand : Nat
  found : Session
  command : Command

namespace Passage

/-- What is to be submitted, and by whom. -/
def mark (p : Passage) : Nat × Command :=
  (p.errand, p.command)

/-- Whether somebody enters the slot or exits from it. -/
def isAt (slot : UInt8) (p : Passage) : Bool :=
  p.command.isTurn slot

/-- Whether the session was not logged in, if it enters. -/
def IsFresh (p : Passage) : Prop :=
  p.command.turn? p.found.slot = some .enter → p.found.initialized = false

end Passage

/-- Sessions come and go in turn, first to last, and one may be there in the end: who enters had not
been logged in before, and who exits is the one who entered last. -/
inductive Visits : List Passage → Option Session → Prop
  | nil : Visits [] none
  | enter {ps : List Passage} {p : Passage} {account name : String} :
    Visits ps none → p.found.initialized = false →
    p.command = .join p.found.slot account name p.found.address.udp →
    Visits (ps ++ [p]) (some (p.found.loggedIn account name))
  | exit {ps : List Passage} {p : Passage} :
    Visits ps (some p.found) → p.command = .leave p.found.slot → Visits (ps ++ [p]) none

/-- So they do up to any point. -/
theorem Visits.of_prefix {ps qs : List Passage} {o : Option Session} (visits : Visits ps o)
    (before : qs <+: ps) : ∃ o, Visits qs o := by
  induction visits with
  | nil =>
    rw [List.prefix_nil.mp before]
    exact ⟨none, .nil⟩
  | enter earlier fresh command ih =>
    rcases List.prefix_concat_iff.mp before with rfl | shorter
    · exact ⟨_, .enter earlier fresh command⟩
    · exact ih shorter
  | exit earlier command ih =>
    rcases List.prefix_concat_iff.mp before with rfl | shorter
    · exact ⟨_, .exit earlier command⟩
    · exact ih shorter

/-! ## What errands owe -/

namespace Errand

/-- What an errand of this number owes. -/
def debt (number : Nat) (t : Errand) : List (Nat × Command) :=
  (t.command?.map (number, ·)).toList

/-- What errands owe, by number. -/
def owed (ts : List Errand) : List (Nat × Command) :=
  ts.zipIdx.flatMap fun t => t.1.debt t.2

theorem debt_of_none {t : Errand} (settled : t.command? = none) (number : Nat) :
    t.debt number = [] := by
  rw [debt, settled]
  rfl

theorem debt_of_some {t : Errand} {command : Command} (owes : t.command? = some command)
    (number : Nat) : t.debt number = [(number, command)] := by
  rw [debt, owes]
  rfl

theorem owed_append (ts : List Errand) (t : Errand) :
    owed (ts ++ [t]) = owed ts ++ t.debt ts.length := by
  rw [owed, List.zipIdx_append, List.flatMap_append, List.zipIdx_singleton, List.flatMap_singleton,
    Nat.zero_add, owed]

/-- What one errand owes has a place of its own. -/
theorem owed_set {ts : List Errand} {number : Nat} {t : Errand} (found : ts[number]? = some t) :
    ∃ before after, owed ts = before ++ t.debt number ++ after ∧
      ∀ t', owed (ts.set number t') = before ++ t'.debt number ++ after := by
  rcases List.getElem?_eq_some_iff.mp found with ⟨inside, rfl⟩
  have place : ∃ later, ∀ t', owed (ts.take number ++ t' :: ts.drop (number + 1)) =
      owed (ts.take number) ++ t'.debt number ++ later := by
    refine ⟨((ts.drop (number + 1)).zipIdx (number + 1)).flatMap fun t => t.1.debt t.2,
      fun t' => ?_⟩
    rw [owed, List.zipIdx_append, List.flatMap_append, List.zipIdx_cons, List.flatMap_cons,
      List.length_take_of_le (Nat.le_of_lt inside), Nat.zero_add, owed, List.append_assoc]
  rcases place with ⟨later, place⟩
  refine ⟨owed (ts.take number), later, ?_, fun t' => ?_⟩
  · rw [← place, List.getElem_cons_drop, List.take_append_drop]
  · rw [List.set_eq_take_append_cons_drop, if_pos inside, place]

/-- Nothing is owed once every errand has submitted its command. -/
theorem owed_eq_nil {ts : List Errand} (settled : ∀ t ∈ ts, t.command? = none) : owed ts = [] := by
  refine List.flatMap_eq_nil_iff.mpr fun t member => debt_of_none (settled t.1 ?_) t.2
  exact List.fst_mem_of_mem_zipIdx member

end Errand

/-! ## The books of a lobby -/

namespace Lobby

variable {l l' : Lobby} {m : Move}

/-- What a move adds to a list. -/
def recorded {α : Type} (note? : Lobby → Move → Option α) (l : Lobby) : List Move → List α
  | [] => []
  | m :: rest => (note? l m).toList ++ recorded note? (l.after m) rest

theorem recorded_append {α : Type} (note? : Lobby → Move → Option α) (l : Lobby)
    (xs ys : List Move) :
    recorded note? l (xs ++ ys) = recorded note? l xs ++ recorded note? (l.run xs) ys := by
  induction xs generalizing l with
  | nil => rfl
  | cons m rest ih =>
    rw [List.cons_append, recorded, ih, recorded, List.append_assoc]
    rfl

/-- The passage that a move makes: a login that takes place, or the end of a session that was logged
in. -/
def passage? (l : Lobby) : Move → Option Passage
  | .release slot tcp =>
    ((l.server.sessions.owned? slot tcp).filter (·.initialized)).map fun x =>
      ⟨l.errands.length, x, .leave slot⟩
  | .advance number _ =>
    match l.errands[number]? with
    | some (.seat r account name) =>
      match l.server.sessions.seat r.stub.slot account name with
      | .seated udp _ =>
        (l.server.sessions.get? r.stub.slot).map fun x =>
          ⟨number, x, .join r.stub.slot account name udp⟩
      | .taken | .vacant => none
    | _ => none
  | .allocate .. | .arrive .. | .step _ => none

/-- The command that a move submits, with the number of the errand. -/
def submission? (l : Lobby) : Move → Option (Nat × Command)
  | .advance number _ => (l.errands[number]?.bind Errand.command?).map (number, ·)
  | .allocate .. | .arrive .. | .release .. | .step _ => none

/-- All passages of a run, in the order in which the table was changed. -/
def passages (l : Lobby) (moves : List Move) : List Passage :=
  recorded passage? l moves

/-- All joins and leaves that a run submitted, in the order in which they came into the queue. -/
def submissions (l : Lobby) (moves : List Move) : List (Nat × Command) :=
  recorded submission? l moves

theorem passages_append (l : Lobby) (xs ys : List Move) :
    l.passages (xs ++ ys) = l.passages xs ++ (l.run xs).passages ys :=
  recorded_append passage? l xs ys

theorem submissions_append (l : Lobby) (xs ys : List Move) :
    l.submissions (xs ++ ys) = l.submissions xs ++ (l.run xs).submissions ys :=
  recorded_append submission? l xs ys

/-- The roster of the world once the commands that wait have been applied. -/
def coming (l : Lobby) : Roster :=
  l.server.world.roster.after l.server.commands.items

/-- What a passage makes of the players. -/
inductive Passes (l : Lobby) (p : Passage) (l' : Lobby) : Prop
  | enter (account name : String) :
    p.command = .join p.found.slot account name p.found.address.udp →
    Player.clampName name = name → l.server.sessions.get? p.found.slot = some p.found →
    l'.server.sessions.player? = Function.update l.server.sessions.player? p.found.slot
      (some (p.found.loggedIn account name)) → Passes l p l'
  | exit :
    p.command = .leave p.found.slot → l.server.sessions.player? p.found.slot = some p.found →
    l'.server.sessions.player? = Function.update l.server.sessions.player? p.found.slot none →
    Passes l p l'

/-- What a move makes of the players, of the queue and of what is owed. -/
inductive Effect (l : Lobby) (m : Move) (l' : Lobby) : Prop
  | none : l.passage? m = none → l.submission? m = none →
    l'.server.sessions.player? = l.server.sessions.player? → l'.coming = l.coming →
    Errand.owed l'.errands = Errand.owed l.errands → Effect l m l'
  | passage {p : Passage} : l.passage? m = some p → l.submission? m = none → l.Passes p l' →
    l'.coming = l.coming →
    (Errand.owed l'.errands).Perm (Errand.owed l.errands ++ [p.mark]) → Effect l m l'
  | submission (number : Nat) (command : Command) : l.passage? m = none →
    l.submission? m = some (number, command) →
    l'.server.sessions.player? = l.server.sessions.player? →
    l'.coming = command.reseat l.coming →
    (Errand.owed l.errands).Perm ((number, command) :: Errand.owed l'.errands) → Effect l m l'

theorem coming_of_core {s s' : Server} (core : s'.core = s.core) (ts ts' : List Errand) :
    coming ⟨s', ts'⟩ = coming ⟨s, ts⟩ :=
  congrArg (fun core => core.2.2.roster.after core.2.1.items) core

/-- A step of an errand that owes nothing afterwards makes no passage. -/
theorem passage?_advance {number : Nat} {t : Errand} (found : l.errands[number]? = some t)
    (service : AccountService) (settled : (t.advance service l.server).2.command? = none) :
    l.passage? (.advance number service) = none := by
  rw [passage?, found]
  cases t with
  | seat r account name =>
    dsimp only
    split
    · next udp sessions seated =>
      rw [Errand.advance, seated] at settled
      cases settled
    · rfl
    · rfl
  | look | ask | identify | join | accept | deny | fail | leave | tell | done => rfl

theorem passage?_seat {number : Nat} {r : Request} {account name : String} {x : Session}
    {udp : Option Endpoint} {sessions : SessionTable} {service : AccountService}
    (found : l.errands[number]? = some (.seat r account name))
    (seated : l.server.sessions.seat r.stub.slot account name = .seated udp sessions)
    (current : l.server.sessions.get? r.stub.slot = some x) :
    l.passage? (.advance number service) =
      some ⟨number, x, .join r.stub.slot account name udp⟩ := by
  rw [passage?, found]
  dsimp only
  rw [seated, current]
  rfl

theorem submission?_advance {number : Nat} {t : Errand} (found : l.errands[number]? = some t)
    (service : AccountService) :
    l.submission? (.advance number service) = t.command?.map (number, ·) := by
  rw [submission?, found]
  rfl

/-- The release of a session is a passage if it was logged in, and otherwise owes nothing. -/
theorem effect_release {slot : UInt8} {tcp : Option Endpoint} {x : Session}
    (indexed : l.server.sessions.Indexed) (owned : l.server.sessions.owned? slot tcp = some x) :
    l.Effect (.release slot tcp) ⟨{ l.server with sessions := l.server.sessions.remove slot },
      l.errands ++ [.farewell slot x]⟩ := by
  have found : l.server.sessions.get? slot = some x := (Option.filter_eq_some_iff.mp owned).1
  have players := l.server.sessions.player?_remove slot
  have passage : l.passage? (.release slot tcp) =
      ((some x).filter (·.initialized)).map fun x => ⟨l.errands.length, x, .leave slot⟩ := by
    rw [passage?, owned]
  cases indexed slot x found
  cases login : x.initialized with
  | true =>
    rw [Option.filter_some, login] at passage
    refine .passage passage rfl (.exit rfl ?_ players) rfl ?_
    · rw [SessionTable.player?_of_get? found, if_pos login]
    · rw [Errand.owed_append, Errand.farewell, if_pos login]
      exact .refl _
  | false =>
    rw [Option.filter_some, login] at passage
    have stub : ¬x.initialized = true := Bool.eq_false_iff.mp login
    have vacant : l.server.sessions.player? x.slot = none := by
      rw [SessionTable.player?_of_get? found, if_neg stub]
    refine .none passage rfl (players.trans (Function.update_eq_self_iff.mpr vacant.symm)) rfl ?_
    rw [Errand.owed_append, Errand.farewell, if_neg stub, Errand.debt_of_none rfl,
      List.append_nil]

/-- An errand that goes on makes a passage when it logs a session in, and then owes the command; it
owes nothing any more when it has submitted one. -/
theorem effect_advance {number : Nat} {t : Errand} (proper : l.Proper)
    (found : l.errands[number]? = some t) (service : AccountService) :
    l.Effect (.advance number service)
      ⟨(t.advance service l.server).1, l.errands.set number (t.advance service l.server).2⟩ := by
  have noPassage := passage?_advance found service
  have submission := submission?_advance found service
  have steps := t.steps_advance proper.receiving service
  generalize (t.advance service l.server).1 = s', (t.advance service l.server).2 = t'
    at steps noPassage ⊢
  rcases Errand.owed_set found with ⟨before, after, owes, owesNow⟩
  cases steps with
  | quiet core settled settledNow =>
    refine .none (noPassage settledNow) ?_ (congrArg (·.1.player?) core)
      (coming_of_core core _ _) ?_
    · rw [submission, settled]
      rfl
    · rw [owes, owesNow, Errand.debt_of_none settled, Errand.debt_of_none settledNow]
  | @seat r account name udp sessions seated =>
    rcases SessionTable.seat_cases seated with ⟨x, current, rfl, -, entries⟩
    have short := (proper.sound _ (List.mem_of_getElem? found)).2
    have same : x.slot = r.stub.slot := proper.indexed _ x current
    refine .passage (passage?_seat found seated current) submission
      (.enter account name ?_ short ?_ ?_) rfl ?_
    · rw [same]
    · rw [same]
      exact current
    · rw [same]
      exact SessionTable.player?_seat entries
    · rw [owes, owesNow, Errand.debt_of_none (t := .seat r account name) rfl, List.append_nil,
        Errand.debt_of_some rfl, List.append_assoc, List.append_assoc]
      exact List.perm_append_comm.append_left before
  | @submit _ _ _ command owing core settledNow =>
    refine .submission number command (noPassage settledNow) ?_
      (congrArg (·.1.player?) core) ?_ ?_
    · rw [submission, owing]
      rfl
    · have queued := coming_of_core core l.errands (l.errands.set number t')
      refine queued.trans ?_
      rw [coming, coming, Server.queueing, Mailbox.with, Roster.after_append]
      rfl
    · rw [owes, owesNow, Errand.debt_of_some owing, Errand.debt_of_none settledNow,
        List.append_nil, List.append_assoc]
      exact List.perm_middle

/-- What waits in the queue is taken out of it and applied. -/
theorem coming_step (l : Lobby) (now : Time) :
    coming ⟨(l.server.step now).server, l.errands⟩ = l.coming := by
  rcases Prod.mk.inj (Server.core_step (s := l.server) now) with ⟨-, rest⟩
  rcases Prod.mk.inj rest with ⟨commands, world⟩
  rw [coming, coming, world, commands, World.roster_tick, World.roster_applyAll]
  rfl

theorem Becomes.effect (turn : l.Becomes m l') (proper : l.Proper) : l.Effect m l' := by
  cases turn with
  | full | ignored => exact .none rfl rfl rfl rfl rfl
  | foreign absent =>
    refine .none ?_ rfl rfl rfl rfl
    rw [passage?, absent]
    rfl
  | absent absent =>
    refine .none ?_ ?_ rfl rfl rfl
    · rw [passage?, absent]
    · rw [submission?, absent]
      rfl
  | allocate allocated =>
    exact .none rfl rfl (SessionTable.player?_allocate allocated) rfl rfl
  | arrive =>
    refine .none rfl rfl rfl rfl ?_
    rw [Errand.owed_append, Errand.debt_of_none rfl, List.append_nil]
  | release owned => exact effect_release proper.indexed owned
  | advance found => exact effect_advance proper found _
  | step now =>
    exact .none rfl rfl (congrArg SessionTable.player? (Server.sessions_step now))
      (coming_step l now) rfl

/-! ## Runs -/

/-- Passages and submissions so far: the passages are what was submitted and what is owed, the table
goes by the passages, and the world by what was submitted. -/
structure Booked (l : Lobby) (ps : List Passage) (submitted : List (Nat × Command)) : Prop where
  settled : (ps.map Passage.mark).Perm (submitted ++ Errand.owed l.errands)
  table : l.server.sessions.roster = Roster.empty.after (ps.map (·.command))
  world : l.coming = Roster.empty.after (submitted.map (·.2))

/-- A passage does to the roster of the table what its command does. -/
theorem Passes.roster {p : Passage} (passes : l.Passes p l') :
    l'.server.sessions.roster = p.command.reseat l.server.sessions.roster := by
  cases passes with
  | enter account name command short _ players =>
    rw [SessionTable.roster_update players, command, Command.reseat, short]
    rfl
  | exit command _ players =>
    rw [SessionTable.roster_update players, command]
    rfl

theorem Effect.booked {ps : List Passage} {submitted : List (Nat × Command)}
    (effect : l.Effect m l') (booked : l.Booked ps submitted) :
    l'.Booked (ps ++ (l.passage? m).toList) (submitted ++ (l.submission? m).toList) := by
  cases effect with
  | none noPassage noSubmission players coming owed =>
    rw [noPassage, noSubmission, Option.toList_none, Option.toList_none, List.append_nil,
      List.append_nil]
    exact ⟨owed ▸ booked.settled, (SessionTable.roster_congr players).trans booked.table,
      coming.trans booked.world⟩
  | @passage p passage noSubmission passes coming owed =>
    rw [passage, noSubmission, Option.toList_none, List.append_nil, Option.toList_some]
    refine ⟨?_, ?_, coming.trans booked.world⟩
    · rw [List.map_append]
      have more := booked.settled.append_right [p.mark]
      rw [List.append_assoc] at more
      exact more.trans (owed.symm.append_left submitted)
    · rw [passes.roster, booked.table, List.map_append, Roster.after_append]
      rfl
  | submission number command noPassage submission players coming owed =>
    rw [noPassage, submission, Option.toList_none, List.append_nil, Option.toList_some]
    refine ⟨?_, (SessionTable.roster_congr players).trans booked.table, ?_⟩
    · rw [List.append_assoc]
      exact booked.settled.trans (owed.append_left submitted)
    · rw [coming, booked.world, List.map_append, Roster.after_append]
      rfl

theorem Booked.run {ps : List Passage} {submitted : List (Nat × Command)}
    (booked : l.Booked ps submitted) (proper : l.Proper) (moves : List Move) :
    (l.run moves).Booked (ps ++ l.passages moves) (submitted ++ l.submissions moves) := by
  induction moves generalizing l ps submitted with
  | nil =>
    rw [passages, submissions, recorded, recorded, List.append_nil, List.append_nil]
    exact booked
  | cons m rest ih =>
    have next := ih (((l.becomes_after m).effect proper).booked booked) (proper.after m)
    rw [List.append_assoc, List.append_assoc] at next
    exact next

/-! ## Comings and goings in a slot -/

theorem Passes.isAt {p : Passage} (passes : l.Passes p l') (slot : UInt8) :
    p.isAt slot = decide (p.found.slot = slot) := by
  cases passes with
  | enter _ _ command | exit command =>
    rw [Passage.isAt, Command.isTurn, command, Command.turn?]
    split
    · next here => exact (decide_eq_true here).symm
    · next away => exact (decide_eq_false away).symm

theorem Passes.visits {p : Passage} (passes : l.Passes p l') {slot : UInt8} {ps : List Passage}
    (visits : Visits ps (l.server.sessions.player? slot)) (fresh : p.isAt slot → p.IsFresh) :
    Visits (ps ++ [p].filter (·.isAt slot)) (l'.server.sessions.player? slot) := by
  have at_ := passes.isAt slot
  by_cases here : p.found.slot = slot
  · rw [decide_eq_true here] at at_
    rw [List.filter_cons_of_pos at_, List.filter_nil]
    subst here
    cases passes with
    | enter account name command _ current players =>
      have stub : p.found.initialized = false := by
        refine fresh at_ ?_
        rw [command]
        exact if_pos rfl
      rw [SessionTable.player?_of_get? current, if_neg (Bool.eq_false_iff.mp stub)] at visits
      rw [players, Function.update_self]
      exact .enter visits stub command
    | exit command current players =>
      rw [current] at visits
      rw [players, Function.update_self]
      exact .exit visits command
  · rw [decide_eq_false here] at at_
    rw [List.filter_cons_of_neg (by rw [at_]; exact Bool.false_ne_true), List.filter_nil,
      List.append_nil]
    cases passes with
    | enter _ _ _ _ _ players | exit _ _ players =>
      rw [players, Function.update_of_ne (Ne.symm here)]
      exact visits

/-- In a slot in which no session is logged in twice, sessions come and go in turn. -/
theorem visits_run (proper : l.Proper) {slot : UInt8} {ps : List Passage}
    (visits : Visits ps (l.server.sessions.player? slot)) (moves : List Move)
    (fresh : ∀ p ∈ (l.passages moves).filter (·.isAt slot), p.IsFresh) :
    Visits (ps ++ (l.passages moves).filter (·.isAt slot))
      ((l.run moves).server.sessions.player? slot) := by
  induction moves generalizing l ps with
  | nil =>
    rw [passages, recorded, List.filter_nil, List.append_nil]
    exact visits
  | cons m rest ih =>
    have split : (l.passages (m :: rest)).filter (·.isAt slot) =
        (l.passage? m).toList.filter (·.isAt slot) ++
          ((l.after m).passages rest).filter (·.isAt slot) :=
      List.filter_append ..
    rw [split] at fresh ⊢
    rw [← List.append_assoc]
    refine ih (proper.after m) ?_ fun p later => fresh p (List.mem_append_right _ later)
    cases (l.becomes_after m).effect proper with
    | none noPassage _ players | submission _ _ noPassage _ players =>
      rw [noPassage, Option.toList_none, List.filter_nil, List.append_nil, players]
      exact visits
    | passage passage _ passes =>
      rw [passage, Option.toList_some] at fresh ⊢
      refine passes.visits visits fun isTurn => fresh _ (List.mem_append_left _ ?_)
      exact List.mem_filter.mpr ⟨List.mem_singleton_self _, isTurn⟩

/-! ## The world and the table -/

theorem booked_start (settings : Settings) (points : List Vec3) (rolls : Nat → Nat) :
    (Lobby.start settings points rolls).Booked [] [] where
  settled := .refl []
  table := SessionTable.roster_empty settings.capacity
  world := World.roster_empty settings.tickInterval points rolls

/-- What has been submitted in a run and what is still owed are the commands of all passages, each
once, and in any order. -/
theorem run_books (settings : Settings) (points : List Vec3) (rolls : Nat → Nat)
    (moves : List Move) :
    (((Lobby.start settings points rolls).passages moves).map Passage.mark).Perm
      ((Lobby.start settings points rolls).submissions moves ++
        Errand.owed ((Lobby.start settings points rolls).run moves).errands) :=
  ((booked_start settings points rolls).run (proper_start settings points rolls) moves).settled

/-- Of what a slot owes nothing is left, and the commands came in the order of the passages. -/
theorem submissions_eq {ps : List Passage} {submitted : List (Nat × Command)} {slot : UInt8}
    (booked : l.Booked ps submitted) (settled : ∀ t ∈ l.errands, t.command? = none)
    (ordered : submitted.filter (·.2.isTurn slot) <+:
      (ps.filter (·.isAt slot)).map Passage.mark) :
    submitted.filter (·.2.isTurn slot) = (ps.filter (·.isAt slot)).map Passage.mark := by
  have all := booked.settled
  rw [Errand.owed_eq_nil settled, List.append_nil] at all
  have here := all.filter (·.2.isTurn slot)
  rw [List.filter_map] at here
  exact ordered.eq_of_length here.length_eq.symm

/-- Where what was submitted for a slot is what its passages ask for, the world comes to what the
table says there. -/
theorem Booked.coming_eq {ps : List Passage} {submitted : List (Nat × Command)} {slot : UInt8}
    (booked : l.Booked ps submitted)
    (same : submitted.filter (·.2.isTurn slot) = (ps.filter (·.isAt slot)).map Passage.mark) :
    l.coming slot = l.server.sessions.roster slot := by
  have commands : (submitted.map (·.2)).filter (·.isTurn slot) =
      (ps.map (·.command)).filter (·.isTurn slot) := by
    rw [List.filter_map, List.filter_map]
    exact (congrArg (List.map (·.2)) same).trans (List.map_map ..)
  calc l.coming slot
    _ = Roster.empty.after (submitted.map (·.2)) slot := congrFun booked.world slot
    _ = Roster.empty.after ((submitted.map (·.2)).filter (·.isTurn slot)) slot :=
      Roster.after_filter rfl _
    _ = Roster.empty.after ((ps.map (·.command)).filter (·.isTurn slot)) slot := by rw [commands]
    _ = Roster.empty.after (ps.map (·.command)) slot := (Roster.after_filter rfl _).symm
    _ = l.server.sessions.roster slot := (congrFun booked.table slot).symm

/-- Where the commands of a slot are submitted in the order in which its sessions come and go, the
world follows the table. As long as no session is logged in twice, the joins and the leaves that
were submitted for the slot alternate, beginning with a join, and each leave is that of the session
whose join came before it. And once every errand has submitted its command and the queue has been
applied, there is a player in the slot if and only if a session is logged in there, with its account
and its name, and snapshots go to the endpoint that it announced. -/
theorem run_passages (settings : Settings) (points : List Vec3) (rolls : Nat → Nat)
    (moves : List Move) (slot : UInt8)
    (ordered : ((Lobby.start settings points rolls).submissions moves).filter (·.2.isTurn slot) <+:
      (((Lobby.start settings points rolls).passages moves).filter (·.isAt slot)).map
        Passage.mark) :
    let start := Lobby.start settings points rolls
    let s := (start.run moves).server
    ((∀ p ∈ (start.passages moves).filter (·.isAt slot), p.IsFresh) →
      ∃ visits o, Visits visits o ∧
        (start.submissions moves).filter (·.2.isTurn slot) = visits.map Passage.mark) ∧
    ((∀ t ∈ (start.run moves).errands, t.command? = none) → ∀ now,
      (((s.world.applyAll now s.commands.items).1.players.get? slot).map fun p =>
          (p.account, p.name)) =
        (((s.sessions.get? slot).filter (·.initialized)).map fun x => (x.account, x.name)) ∧
      (s.world.applyAll now s.commands.items).1.endpoints.get? slot =
        ((s.sessions.get? slot).filter (·.initialized)).bind (·.address.udp)) := by
  intro start s
  have proper := proper_start settings points rolls
  have booked := (booked_start settings points rolls).run proper moves
  rw [List.nil_append, List.nil_append] at booked
  refine ⟨fun fresh => ?_, fun settled now => ?_⟩
  · have vacant : start.server.sessions.player? slot = none := by
      rw [SessionTable.player?, show start.server.sessions = .empty settings.capacity from rfl,
        SessionTable.get?_empty]
      rfl
    have visits := visits_run proper (vacant ▸ Visits.nil) moves fresh
    rw [List.nil_append] at visits
    rcases List.prefix_map_iff.mp ordered with ⟨seen, before, same⟩
    rcases visits.of_prefix before with ⟨o, visited⟩
    exact ⟨seen, o, visited, same⟩
  · have roster : (s.world.applyAll now s.commands.items).1.roster slot =
        s.sessions.roster slot := by
      rw [World.roster_applyAll]
      exact booked.coming_eq (submissions_eq booked settled ordered)
    rw [SessionTable.roster_eq] at roster
    exact Seat.mk.inj roster

/-! ### In turn, and overtaken -/

/-- A login on its way adds nothing to the books. -/
theorem recorded_thinking {number : Nat} {r : Request} {credentials : Credentials}
    {policy : AuthPolicy} {service : AccountService} (found : l.errands[number]? = some (.look r))
    (names : r.Names credentials)
    (free : l.server.sessions.findByAccount? credentials.account = none)
    (accepted : l.server.policy.check service credentials.account credentials.token =
      (true, policy)) :
    l.passages (thinking number service) = [] ∧ l.submissions (thinking number service) = [] := by
  have inside : number < l.errands.length := (List.getElem?_eq_some_iff.mp found).1
  have looked := after_look found names free service
  have asked := after_ask (l := ⟨l.server, l.errands.set number (.ask r credentials)⟩)
    (List.getElem?_set_self inside) accepted
  rw [List.set_set] at asked
  constructor
  · rw [passages, thinking, recorded, looked, recorded, asked, recorded, recorded, passage?,
      passage?, passage?, found, List.getElem?_set_self inside, List.getElem?_set_self inside]
    rfl
  · rw [submissions, thinking, recorded, looked, recorded, asked, recorded, recorded, submission?,
      submission?, submission?, found, List.getElem?_set_self inside,
      List.getElem?_set_self inside]
    rfl

/-- A login of the visitor, as far as the join. -/
def joining : List Move :=
  asking ++ [.advance 0 .allowAll]

theorem run_joining :
    (Lobby.start Settings.default [] fun _ => 0).run joining =
      ⟨entered, [.join (visitorRequest 97) "a" "a" visitor.udp]⟩ := by
  rw [joining, run_concat, run_asking, after_asking]

/-- The visitor leaves when the join has been submitted. -/
def inTurn : List Move :=
  joining ++ [.advance 0 .allowAll, .release 0 visitor.tcp, .advance 1 .allowAll]

/-- In the books there is a join that is owed. -/
theorem books_joining :
    (Lobby.start Settings.default [] fun _ => 0).passages joining =
      [⟨0, visitorStub, .join 0 "a" "a" visitor.udp⟩] ∧
    (Lobby.start Settings.default [] fun _ => 0).submissions joining = [] := by
  have met : (Lobby.start Settings.default [] fun _ => 0).run
      [.allocate visitor 64, .arrive (visitorRequest 97).origin (visitorRequest 97).packet none] =
      ⟨visited, [.look (visitorRequest 97)]⟩ := rfl
  rcases show passages ⟨visited, [.look (visitorRequest 97)]⟩ (thinking 0 .allowAll) = [] ∧
      submissions ⟨visited, [.look (visitorRequest 97)]⟩ (thinking 0 .allowAll) = [] from
    recorded_thinking rfl names_visitorRequest.1 (free_visited "a") rfl with
    ⟨noPassage, noSubmission⟩
  have seated : visited.sessions.seat 0 "a" "a" =
      .seated visitor.udp (visited.sessions.authenticate 0 "a" "a") := by
    rw [SessionTable.seat, free_visited, get?_visited]
    rfl
  have passage : passages ⟨visited, [.seat (visitorRequest 97) "a" "a"]⟩ [.advance 0 .allowAll] =
      [⟨0, visitorStub, .join 0 "a" "a" visitor.udp⟩] := by
    rw [passages, recorded, passage?_seat (l := ⟨visited, [.seat (visitorRequest 97) "a" "a"]⟩)
      (r := visitorRequest 97) rfl seated get?_visited]
    rfl
  constructor
  · rw [joining, passages_append, run_asking, asking, passages_append, met, noPassage, passage]
    rfl
  · rw [joining, submissions_append, run_asking, asking, submissions_append, met, noSubmission]
    rfl

/-- The books once both commands have been submitted. -/
theorem books_inTurn :
    (Lobby.start Settings.default [] fun _ => 0).passages inTurn =
      [⟨0, visitorStub, .join 0 "a" "a" visitor.udp⟩,
        ⟨1, visitorStub.loggedIn "a" "a", .leave 0⟩] ∧
    (Lobby.start Settings.default [] fun _ => 0).submissions inTurn =
      [(0, .join 0 "a" "a" visitor.udp), (1, .leave 0)] := by
  rcases books_joining with ⟨passage, noSubmission⟩
  constructor
  · rw [inTurn, passages_append, passage, run_joining]
    rfl
  · rw [inTurn, submissions_append, noSubmission, run_joining]
    rfl

/-- The join and the leave come in turn, and nobody is left. -/
theorem run_passages_inTurn :
    let start := Lobby.start Settings.default [] fun _ => 0
    let s := (start.run inTurn).server
    (start.submissions inTurn).filter (·.2.isTurn 0) <+:
      ((start.passages inTurn).filter (·.isAt 0)).map Passage.mark ∧
    (∃ visits o, Visits visits o ∧
      (start.submissions inTurn).filter (·.2.isTurn 0) = visits.map Passage.mark) ∧
    ∀ now, (((s.world.applyAll now s.commands.items).1.players.get? 0).map fun p =>
        (p.account, p.name)) =
      (((s.sessions.get? 0).filter (·.initialized)).map fun x => (x.account, x.name)) := by
  dsimp only
  rcases books_inTurn with ⟨passages, submissions⟩
  have ordered : ((Lobby.start Settings.default [] fun _ => 0).submissions inTurn).filter
      (·.2.isTurn 0) <+: (((Lobby.start Settings.default [] fun _ => 0).passages inTurn).filter
        (·.isAt 0)).map Passage.mark := by
    rw [passages, submissions]
    exact List.prefix_rfl
  rcases run_passages Settings.default [] (fun _ => 0) inTurn 0 ordered with ⟨visits, world⟩
  refine ⟨ordered, visits fun p member turn => ?_, fun now => (world ?_ now).1⟩
  · rw [passages] at member
    rcases List.mem_cons.mp (List.mem_filter.mp member).1 with rfl | later
    · rfl
    · cases List.mem_singleton.mp later
      exact absurd turn (by decide)
  · rw [inTurn, run_append, run_joining]
    exact List.forall_mem_cons.mpr ⟨rfl, List.forall_mem_singleton.mpr rfl⟩

/-- The visitor leaves before, the leave is submitted first, and both errands come to an end. -/
def overtaken : List Move :=
  joining ++ [.release 0 visitor.tcp, .advance 1 .allowAll, .advance 0 .allowAll,
    .advance 0 .allowAll, .advance 0 .allowAll, .advance 1 .allowAll]

/-- The session is gone and nothing is left to do, and there is a player that nobody plays. -/
theorem run_overtaken :
    let l := (Lobby.start Settings.default [] fun _ => 0).run overtaken
    l.errands = [.done, .done] ∧
    l.server.commands.items = [.leave 0, .join 0 "a" "a" visitor.udp] ∧
    l.server.sessions.get? 0 = none ∧
    ∀ now, ((l.server.world.applyAll now l.server.commands.items).1.players.get? 0).map
      (fun p => (p.account, p.name)) = some ("a", "a") := by
  dsimp only
  rw [overtaken, run_append, run_joining]
  refine ⟨rfl, rfl, (SessionTable.get?_remove _ 0 0).trans (if_pos rfl), fun now => ?_⟩
  have roster : World.roster ((Server.start Settings.default [] fun _ => 0).world.applyAll now
      [.leave 0, .join 0 "a" "a" visitor.udp]).1 0 = ⟨some ("a", "a"), visitor.udp⟩ := by
    rw [World.roster_applyAll, Roster.after, List.foldl_cons, List.foldl_cons, List.foldl_nil,
      Command.reseat, Function.update_self]
    rfl
  exact congrArg Seat.who roster

end Lobby

end Deathmatch
