import Uc1Integration.Interaction.Mailbox

/-! In a timely run the order of replies, interrupts and statements does not
matter: the run comes to the outcome in which every reply is handled at once. -/

set_option autoImplicit false

namespace Uc1Integration.Interaction

variable {Own Shared Message : Type}

namespace Client

def Agrees (replies : Nat → Message) (client : Client Own Shared Message) : Prop :=
  ∀ reply ∈ client.replies, replies reply.1 = reply.2

/-- The shared memory as it will be once the last request is answered and handled. -/
inductive Awaits (mailbox : Mailbox Shared Message) (replies : Nat → Message)
    (client : Client Own Shared Message) : Shared → Prop where
  | settled : client.Settled → Awaits mailbox replies client client.shared
  | raised : client.waiting = [] → client.raised = 1 →
      Awaits mailbox replies client (mailbox.handle client.shared)
  | waiting {position : Nat} : client.waiting = [position] → client.raised = 0 →
      position + 1 = client.requests.length →
      Awaits mailbox replies client
        (mailbox.handle (mailbox.put (replies position) client.shared))

/-- The client is on the way to the outcome, or there. -/
inductive Nears (mailbox : Mailbox Shared Message) (replies : Nat → Message)
    (client : Client Own Shared Message) : Outcome Own Message → Prop where
  | running {shared : Shared} : client.result = none → Awaits mailbox replies client shared →
      Nears mailbox replies client
        ((settle mailbox replies client.rest client.requests.length client.own shared).after
          client.requests)
  | returned {code : Int} : client.result = some code →
      Nears mailbox replies client ⟨client.own, code, client.requests⟩

theorem Awaits.of_settled {mailbox : Mailbox Shared Message} {replies : Nat → Message}
    {client : Client Own Shared Message} {shared : Shared}
    (awaits : Awaits mailbox replies client shared) (settled : client.Settled) :
    shared = client.shared := by
  cases awaits with
  | settled => rfl
  | raised _ raised =>
      rw [settled.raised] at raised
      cases raised
  | waiting waiting =>
      rw [settled.waiting] at waiting
      cases waiting

theorem Awaits.move {mailbox : Mailbox Shared Message} {replies : Nat → Message}
    {client : Client Own Shared Message} {shared : Shared}
    (awaits : Awaits mailbox replies client shared) (own : Own) (rest : List (Stmt Own Shared)) :
    Awaits mailbox replies { client with own, rest } shared := by
  cases awaits with
  | settled settled => exact .settled ⟨settled.waiting, settled.raised⟩
  | raised answered raised => exact .raised answered raised
  | waiting waiting quiet last => exact .waiting waiting quiet last

private theorem nears_reply {mailbox : Mailbox Shared Message} {replies : Nat → Message}
    {client : Client Own Shared Message} {outcome : Outcome Own Message}
    (nears : Nears mailbox replies client outcome) {before after : List Nat} {position : Nat}
    {message : Message} (waits : client.waiting = before ++ position :: after)
    (same : replies position = message) :
    Nears mailbox replies
      { client with
        shared := mailbox.put message client.shared
        waiting := before ++ after
        replies := client.replies ++ [(position, message)]
        raised := client.raised + 1 } outcome := by
  cases nears with
  | returned returned => exact .returned returned
  | running running awaits =>
      cases awaits with
      | settled settled => simp [settled.waiting] at waits
      | raised answered => simp [answered] at waits
      | @waiting last waiting quiet _ =>
          rw [waiting, eq_comm, List.append_eq_singleton_iff] at waits
          obtain ⟨rfl, only⟩ | ⟨_, nothing⟩ := waits
          · cases only
            subst same
            exact .running running (.raised rfl (congrArg (· + 1) quiet))
          · cases nothing

private theorem nears_handle {mailbox : Mailbox Shared Message} {replies : Nat → Message}
    {client : Client Own Shared Message} {outcome : Outcome Own Message}
    (nears : Nears mailbox replies client outcome) {raised : Nat}
    (pending : client.raised = raised + 1) :
    Nears mailbox replies { client with shared := mailbox.handle client.shared, raised }
      outcome := by
  cases nears with
  | returned returned => exact .returned returned
  | running running awaits =>
      cases awaits with
      | settled settled =>
          rw [settled.raised] at pending
          cases pending
      | raised answered one =>
          have last : raised = 0 := by omega
          subst last
          exact .running running (.settled ⟨answered, rfl⟩)
      | waiting _ quiet =>
          rw [quiet] at pending
          cases pending

/-- Whatever step comes next in a timely run, the outcome stays what it was. -/
theorem Nears.of_step {mailbox : Mailbox Shared Message}
    {accepts : Nat → Message → Message → Prop} {replies : Nat → Message}
    {client client' : Client Own Shared Message} {outcome : Outcome Own Message}
    (nears : Nears mailbox replies client outcome)
    (step : Step mailbox (.timely accepts) client client') (agrees : Agrees replies client') :
    Nears mailbox replies client' outcome := by
  have busy : ∀ {code : Int}, client.result = none → client.result ≠ some code := by
    intro code running returned
    rw [running] at returned
    cases returned
  cases step with
  | touch running next settled =>
      cases nears with
      | returned returned => exact absurd returned (busy running)
      | running _ awaits =>
          rw [next, settle, awaits.of_settled settled]
          exact .running running (.settled ⟨settled.waiting, settled.raised⟩)
  | own running next =>
      cases nears with
      | returned returned => exact absurd returned (busy running)
      | running _ awaits =>
          rw [next, settle]
          exact .running running (awaits.move _ _)
  | leave running next holds =>
      cases nears with
      | returned returned => exact absurd returned (busy running)
      | running _ awaits =>
          rw [next, settle, if_pos holds, Outcome.after, List.append_nil]
          exact .returned rfl
  | stay running next fails =>
      cases nears with
      | returned returned => exact absurd returned (busy running)
      | running _ awaits =>
          rw [next, settle, if_neg (by simp [fails])]
          exact .running running (awaits.move client.own _)
  | notify running next settled =>
      cases nears with
      | returned returned => exact absurd returned (busy running)
      | running _ awaits =>
          rw [next, settle, Outcome.after_after, awaits.of_settled settled]
          have longer : (client.requests ++ [mailbox.read client.shared]).length =
              client.requests.length + 1 := List.length_append
          rw [← longer]
          refine .running running (.waiting ?_ settled.raised longer.symm)
          simp [settled.waiting]
  | finish running ended =>
      cases nears with
      | returned returned => exact absurd returned (busy running)
      | running _ awaits =>
          rw [ended, settle, Outcome.after, List.append_nil]
          exact .returned rfl
  | @reply before after position request message waits _ _ =>
      exact nears_reply nears waits (agrees (position, message) (by simp))
  | handle pending => exact nears_handle nears pending

theorem Agrees.of_step {mailbox : Mailbox Shared Message} {regime : Regime Own Shared Message}
    {replies : Nat → Message} {client client' : Client Own Shared Message}
    (step : Step mailbox regime client client') (agrees : Agrees replies client') :
    Agrees replies client := by
  cases step with
  | reply => exact fun reply member => agrees reply (List.mem_append_left _ member)
  | _ => exact agrees

theorem Nears.of_reaches {mailbox : Mailbox Shared Message}
    {accepts : Nat → Message → Message → Prop} {replies : Nat → Message}
    {client client' : Client Own Shared Message} {outcome : Outcome Own Message}
    (nears : Nears mailbox replies client outcome)
    (reaches : Reaches mailbox (.timely accepts) client client')
    (agrees : Agrees replies client') : Nears mailbox replies client' outcome := by
  induction reaches with
  | refl => exact nears
  | tail _ step ih => exact (ih (agrees.of_step step)).of_step step agrees

/-- A timely run that returns has come to what its replies settle. -/
theorem outcome_of_timely {mailbox : Mailbox Shared Message}
    {accepts : Nat → Message → Message → Prop} {replies : Nat → Message} {own : Own}
    {shared : Shared} {script : List (Stmt Own Shared)} {client : Client Own Shared Message}
    {code : Int}
    (reaches : Reaches mailbox (.timely accepts) (start own shared script) client)
    (agrees : Agrees replies client) (returned : client.result = some code) :
    settle mailbox replies script 0 own shared = ⟨client.own, code, client.requests⟩ := by
  have begins : Nears mailbox replies (start own shared script)
      (settle mailbox replies script 0 own shared) :=
    .running rfl (.settled ⟨rfl, rfl⟩)
  have nears := begins.of_reaches reaches agrees
  generalize settle mailbox replies script 0 own shared = outcome at nears
  cases nears with
  | running running =>
      rw [running] at returned
      cases returned
  | returned sameCode =>
      rw [sameCode] at returned
      cases returned
      rfl

/-- In a timely run at most the last request waits, and replies came in order. -/
structure Ordered (accepts : Nat → Message → Message → Prop)
    (client : Client Own Shared Message) : Prop where
  positions : client.replies.map Prod.fst ++ client.waiting = List.range client.requests.length
  single : client.waiting.length ≤ 1
  accepted : ∀ reply ∈ client.replies, ∃ request,
    client.requests[reply.1]? = some request ∧ accepts reply.1 request reply.2

theorem Ordered.of_step {mailbox : Mailbox Shared Message}
    {accepts : Nat → Message → Message → Prop} {client client' : Client Own Shared Message}
    (ordered : Ordered accepts client) (step : Step mailbox (.timely accepts) client client') :
    Ordered accepts client' := by
  obtain ⟨positions, single, accepted⟩ := ordered
  cases step with
  | touch => exact ⟨positions, single, accepted⟩
  | own => exact ⟨positions, single, accepted⟩
  | leave => exact ⟨positions, single, accepted⟩
  | stay => exact ⟨positions, single, accepted⟩
  | finish => exact ⟨positions, single, accepted⟩
  | handle => exact ⟨positions, single, accepted⟩
  | notify _ _ settled =>
      rw [settled.waiting, List.append_nil] at positions
      constructor
      · simp only [settled.waiting, List.nil_append, positions, List.length_append,
          List.length_cons, List.length_nil, List.range_succ]
      · simp [settled.waiting]
      · intro reply member
        obtain ⟨request, there, accepts⟩ := accepted reply member
        refine ⟨request, ?_, accepts⟩
        rw [List.getElem?_append_left (List.getElem?_eq_some_iff.mp there).choose]
        exact there
  | @reply before after position request message waits asked isAccepted =>
      have lone : before = [] ∧ after = [] := by
        rw [waits, List.length_append, List.length_cons] at single
        constructor <;> apply List.eq_nil_of_length_eq_zero <;> omega
      obtain ⟨rfl, rfl⟩ := lone
      rw [waits] at positions
      constructor
      · simpa using positions
      · simp
      · intro reply member
        cases List.mem_append.mp member with
        | inl earlier => exact accepted reply earlier
        | inr new =>
            cases List.mem_singleton.mp new
            exact ⟨request, asked, isAccepted⟩

theorem Ordered.of_reaches {mailbox : Mailbox Shared Message}
    {accepts : Nat → Message → Message → Prop} {own : Own} {shared : Shared}
    {script : List (Stmt Own Shared)} {client : Client Own Shared Message}
    (reaches : Reaches mailbox (.timely accepts) (start own shared script) client) :
    Ordered accepts client := by
  induction reaches with
  | refl => exact ⟨rfl, Nat.zero_le 1, nofun⟩
  | tail _ step ih => exact ih.of_step step

theorem Ordered.answered {accepts : Nat → Message → Message → Prop}
    {client : Client Own Shared Message} (ordered : Ordered accepts client) (position : Nat)
    (earlier : position + 1 < client.requests.length) :
    ∃ message, (position, message) ∈ client.replies := by
  obtain ⟨positions, single, _⟩ := ordered
  have before : position < (client.replies.map Prod.fst).length := by
    have lengths := congrArg List.length positions
    rw [List.length_append, List.length_range] at lengths
    omega
  have joined : (client.replies.map Prod.fst ++ client.waiting)[position]? =
      (client.replies.map Prod.fst)[position]? := List.getElem?_append_left before
  have here : (client.replies.map Prod.fst)[position]? = some position := by
    rw [← joined, positions, List.getElem?_range (by omega)]
  rw [List.getElem?_map, Option.map_eq_some_iff] at here
  obtain ⟨⟨same, message⟩, there, rfl⟩ := here
  exact ⟨message, List.mem_of_getElem? there⟩

/-- The reply to the first request comes first. -/
theorem Ordered.replies_cases {accepts : Nat → Message → Message → Prop}
    {client : Client Own Shared Message} (ordered : Ordered accepts client) :
    client.replies = [] ∨
      ∃ reply later, client.replies = (0, reply) :: later ∧ ∀ other ∈ later, 0 < other.1 := by
  have positions := ordered.positions
  cases listed : client.replies with
  | nil => exact .inl rfl
  | cons first later =>
      right
      rw [listed, List.map_cons, List.cons_append] at positions
      cases count : client.requests.length with
      | zero =>
          rw [count] at positions
          cases positions
      | succ more =>
          rw [count, List.range_succ_eq_map, List.cons.injEq] at positions
          refine ⟨first.2, later, by rw [← positions.1], ?_⟩
          intro other member
          have inside : other.1 ∈ (List.range more).map Nat.succ := by
            rw [← positions.2]
            exact List.mem_append_left _ (List.mem_map_of_mem member)
          obtain ⟨position, _, same⟩ := List.mem_map.mp inside
          exact same ▸ Nat.succ_pos position

theorem exists_agrees [Inhabited Message] {accepts : Nat → Message → Message → Prop}
    {client : Client Own Shared Message} (ordered : Ordered accepts client) :
    ∃ replies, Agrees replies client := by
  have distinct : (client.replies.map Prod.fst).Nodup := by
    have all : (client.replies.map Prod.fst ++ client.waiting).Nodup := by
      rw [ordered.positions]
      exact List.nodup_range
    exact (List.nodup_append.mp all).1
  generalize listed : client.replies = replies at distinct
  suffices ∃ function : Nat → Message, ∀ reply ∈ replies, function reply.1 = reply.2 by
    obtain ⟨function, agrees⟩ := this
    exact ⟨function, fun reply member => agrees reply (listed ▸ member)⟩
  clear listed
  induction replies with
  | nil => exact ⟨fun _ => default, nofun⟩
  | cons first rest ih =>
      rw [List.map_cons, List.nodup_cons] at distinct
      obtain ⟨fresh, distinct⟩ := distinct
      obtain ⟨function, agrees⟩ := ih distinct
      refine ⟨fun position => if position = first.1 then first.2 else function position, ?_⟩
      intro reply member
      cases List.mem_cons.mp member with
      | inl here => simp [here]
      | inr later =>
          have different : reply.1 ≠ first.1 := fun same =>
            fresh (same ▸ List.mem_map_of_mem later)
          simpa [different] using agrees reply later

/-- What a client can still do; every step makes it smaller. -/
def toDo (client : Client Own Shared Message) : Nat :=
  4 * client.rest.length + (if client.result.isNone then 1 else 0) + 2 * client.waiting.length +
    client.raised

theorem toDo_lt_of_step {mailbox : Mailbox Shared Message} {regime : Regime Own Shared Message}
    {client client' : Client Own Shared Message} (step : Step mailbox regime client client') :
    client'.toDo < client.toDo := by
  cases step with
  | touch _ next => simp [toDo, next]
  | own _ next => simp [toDo, next]
  | leave running next => simp [toDo, next, running]
  | stay _ next => simp [toDo, next]
  | notify _ next =>
      simp [toDo, next]
      omega
  | finish running ended => simp [toDo, running]
  | reply waits =>
      simp [toDo, waits]
      omega
  | handle pending => simp [toDo, pending]

theorem acc (mailbox : Mailbox Shared Message) (regime : Regime Own Shared Message)
    (client : Client Own Shared Message) :
    Acc (fun later earlier => Step mailbox regime earlier later) client := by
  have below : Subrelation (fun later earlier => Step mailbox regime earlier later)
      (InvImage (· < ·) fun client : Client Own Shared Message => client.toDo) :=
    fun step => toDo_lt_of_step step
  exact below.accessible ((InvImage.wf _ Nat.lt_wfRel.wf).apply client)

/-- When every request has an acceptable reply, a timely run never gets stuck. -/
theorem Ordered.progress {mailbox : Mailbox Shared Message}
    {accepts : Nat → Message → Message → Prop} {client : Client Own Shared Message}
    (ordered : Ordered accepts client)
    (answers : ∀ position request, ∃ message, accepts position request message)
    (running : client.result = none) :
    ∃ client', Step mailbox (.timely accepts) client client' := by
  have unsettled : ¬ client.Settled → ∃ client', Step mailbox (.timely accepts) client client' := by
    intro busy
    cases raised : client.raised with
    | succ count => exact ⟨_, .handle raised⟩
    | zero =>
        cases waiting : client.waiting with
        | nil => exact absurd ⟨waiting, raised⟩ busy
        | cons position after =>
            have known : position < client.requests.length := by
              rw [← List.mem_range, ← ordered.positions, waiting]
              simp
            obtain ⟨message, accepted⟩ := answers position client.requests[position]
            have first : client.waiting = [] ++ position :: after := waiting
            exact ⟨_, .reply first (List.getElem?_eq_getElem known) accepted⟩
  by_cases settled : client.Settled
  · cases next : client.rest with
    | nil => exact ⟨_, .finish running next⟩
    | cons statement rest =>
        cases statement with
        | touch f => exact ⟨_, .touch running next settled⟩
        | own f => exact ⟨_, .own running next⟩
        | notify => exact ⟨_, .notify running next settled⟩
        | leaveIf condition code =>
            cases holds : condition client.own with
            | true => exact ⟨_, .leave running next holds⟩
            | false => exact ⟨_, .stay running next holds⟩
  · exact unsettled settled

/-- Any timely run can be carried on until the client returns. -/
theorem exists_returned {mailbox : Mailbox Shared Message}
    {accepts : Nat → Message → Message → Prop} {own : Own} {shared : Shared}
    {script : List (Stmt Own Shared)}
    (answers : ∀ position request, ∃ message, accepts position request message)
    {client : Client Own Shared Message}
    (reaches : Reaches mailbox (.timely accepts) (start own shared script) client) :
    ∃ client', Reaches mailbox (.timely accepts) (start own shared script) client' ∧
      client'.result.isSome := by
  have ends := acc mailbox (.timely accepts) client
  induction ends with
  | intro client _ ih =>
      cases result : client.result with
      | some code => exact ⟨client, reaches, by rw [result]; rfl⟩
      | none =>
          obtain ⟨next, step⟩ := (Ordered.of_reaches reaches).progress answers result
          exact ih next step (reaches.tail step)

theorem Agrees.snoc {replies : Nat → Message} {client : Client Own Shared Message}
    (agrees : Agrees replies client) (position : Nat) :
    ∀ reply ∈ client.replies ++ [(position, replies position)], replies reply.1 = reply.2 := by
  intro reply member
  cases List.mem_append.mp member with
  | inl earlier => exact agrees reply earlier
  | inr new =>
      cases List.mem_singleton.mp new
      rfl

private theorem exists_return {mailbox : Mailbox Shared Message}
    {accepts : Nat → Message → Message → Prop} {replies : Nat → Message}
    (script : List (Stmt Own Shared)) (client : Client Own Shared Message)
    (running : client.result = none) (next : client.rest = script) (settled : client.Settled)
    (agrees : Agrees replies client)
    (accepted : ∀ later request,
      (settle mailbox replies script client.requests.length client.own
        client.shared).requests[later]? = some request →
      accepts (client.requests.length + later) request
        (replies (client.requests.length + later))) :
    ∃ client', Reaches mailbox (.timely accepts) client client' ∧
      client'.result.isSome ∧ Agrees replies client' := by
  induction script generalizing client with
  | nil => exact ⟨_, .single (.finish running next), rfl, agrees⟩
  | cons statement rest ih =>
      cases statement with
      | touch f =>
          obtain ⟨client', reaches, returned, agrees'⟩ :=
            ih { client with
              own := (f client.own client.shared).1
              shared := (f client.own client.shared).2
              rest } running rfl ⟨settled.waiting, settled.raised⟩ agrees accepted
          exact ⟨client', .head (.touch running next settled) reaches, returned, agrees'⟩
      | own f =>
          obtain ⟨client', reaches, returned, agrees'⟩ :=
            ih { client with own := f client.own, rest } running rfl
              ⟨settled.waiting, settled.raised⟩ agrees accepted
          exact ⟨client', .head (.own running next) reaches, returned, agrees'⟩
      | leaveIf condition code =>
          cases holds : condition client.own with
          | true => exact ⟨_, .single (.leave running next holds), rfl, agrees⟩
          | false =>
              rw [settle, if_neg (by simp [holds])] at accepted
              obtain ⟨client', reaches, returned, agrees'⟩ :=
                ih { client with rest } running rfl
                  ⟨settled.waiting, settled.raised⟩ agrees accepted
              exact ⟨client', .head (.stay running next holds) reaches, returned, agrees'⟩
      | notify =>
          rw [settle] at accepted
          have first := accepted 0 (mailbox.read client.shared) (by simp [Outcome.after])
          have now : client.waiting ++ [client.requests.length] =
              [] ++ client.requests.length :: [] := by simp [settled.waiting]
          have asked : (client.requests ++ [mailbox.read client.shared])[client.requests.length]? =
              some (mailbox.read client.shared) := by simp
          have others : ∀ later request,
              (settle mailbox replies rest (client.requests.length + 1) client.own
                (mailbox.handle (mailbox.put (replies client.requests.length)
                  client.shared))).requests[later]? = some request →
              accepts (client.requests.length + 1 + later) request
                (replies (client.requests.length + 1 + later)) := by
            intro later request there
            rw [Nat.add_assoc, Nat.add_comm 1 later]
            exact accepted (later + 1) request (by simpa [Outcome.after] using there)
          have longer : client.requests.length + 1 =
              (client.requests ++ [mailbox.read client.shared]).length := by simp
          rw [longer] at others
          obtain ⟨client', reaches, returned, agrees'⟩ := ih
            { client with
              rest
              shared := mailbox.handle
                (mailbox.put (replies client.requests.length) client.shared)
              requests := client.requests ++ [mailbox.read client.shared]
              waiting := []
              replies := client.replies ++
                [(client.requests.length, replies client.requests.length)]
              raised := client.raised } running rfl ⟨rfl, settled.raised⟩
            (agrees.snoc client.requests.length) others
          refine ⟨client', ?_, returned, agrees'⟩
          refine .head (.notify running next settled) (.head (.reply now asked first) ?_)
          exact .head (.handle rfl) reaches

/-- Acceptable replies make up a timely run that returns what they settle. -/
theorem exists_timely (mailbox : Mailbox Shared Message)
    (accepts : Nat → Message → Message → Prop) (replies : Nat → Message) (own : Own)
    (shared : Shared) (script : List (Stmt Own Shared))
    (accepted : ∀ position request,
      (settle mailbox replies script 0 own shared).requests[position]? = some request →
      accepts position request (replies position)) :
    ∃ client, Reaches mailbox (.timely accepts) (start own shared script) client ∧
      Agrees replies client ∧
      settle mailbox replies script 0 own shared =
        ⟨client.own, client.result.getD 0, client.requests⟩ ∧ client.result.isSome := by
  have fromStart : ∀ later request,
      (settle mailbox replies script 0 own shared).requests[later]? = some request →
      accepts (0 + later) request (replies (0 + later)) := by
    intro later request there
    rw [Nat.zero_add]
    exact accepted later request there
  obtain ⟨client, reaches, returned, agrees⟩ := exists_return script (start own shared script)
    rfl rfl ⟨rfl, rfl⟩ nofun fromStart
  obtain ⟨code, result⟩ := Option.isSome_iff_exists.mp returned
  refine ⟨client, reaches, agrees, ?_, returned⟩
  rw [outcome_of_timely reaches agrees result, result]
  rfl

end Client

end Uc1Integration.Interaction
