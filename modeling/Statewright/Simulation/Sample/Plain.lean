import Statewright.Simulation.Sample.Basic

/-!
# Plain machines

Machines without payloads, extensions or nested states: guards, actions, entry and exit
callbacks, failures, internal transitions, duplicates, discriminants and raw identifiers. The texts
are for the driver of trials; no theorem is about them.
-/

namespace Statewright.Simulation.Sample

def relay : Sample :=
  { name := "relay"
    source :=
      [
        "mod relay \x7b",
        "    pub enum State \x7b Open, Closed \x7d",
        "    pub enum Trigger \x7b Toggle \x7d",
        "    #[state_machine(state = State, trigger = Trigger)]",
        "    #[transition(from = Open, trigger = Toggle, to = Closed)]",
        "    #[transition(from = Closed, trigger = Toggle, to = Open)]",
        "    pub struct Relay;",
        "\x7d"] }

def job : Sample :=
  { name := "job"
    source :=
      [
        "mod job \x7b",
        "    pub enum State \x7b Idle, Working, Done \x7d",
        "    pub enum Trigger \x7b Start, Finish, Reset, Poke \x7d",
        "    #[state_machine(state = State, trigger = Trigger)]",
        "    #[transition(from = Idle, trigger = Start, to = Working, guard = \"has_budget\", action = \"spend\")]",
        "    #[transition(from = Working, trigger = Finish, to = Done, action = \"report\")]",
        "    #[transition(from = Done, trigger = Reset, to = Idle)]",
        "    #[transition(from = Working, trigger = Reset, to = Working, guard = \"may_restart\", action = \"restart\")]",
        "    #[transition(from = Done, trigger = Poke, to = Done)]",
        "    #[state(state = Working, on_entry = \"started\", on_exit = \"stopped\")]",
        "    #[state(state = Idle, on_exit = \"leave_idle\")]",
        "    #[state(state = Done, on_entry = \"arrived\")]",
        "    pub struct Job \x7b pub env: Env \x7d",
        "    impl Job \x7b",
        "        fn has_budget(&self) -> bool \x7b .. \x7d",
        "        fn may_restart(&self) -> bool \x7b .. \x7d",
        "        fn spend(&mut self) \x7b .. \x7d",
        "        fn report(&self) \x7b .. \x7d",
        "        fn restart(&mut self) \x7b .. \x7d",
        "        fn started(&mut self) \x7b .. \x7d",
        "        fn stopped(&mut self) \x7b .. \x7d",
        "        fn leave_idle(&self) \x7b .. \x7d",
        "        fn arrived(&mut self) \x7b .. \x7d",
        "    \x7d",
        "\x7d"] }

def ticker : Sample :=
  { name := "ticker"
    source :=
      [
        "mod ticker \x7b",
        "    pub enum State \x7b Running, Stopped, Broken \x7d",
        "    pub enum Trigger \x7b Tick, Stop, Kick \x7d",
        "    #[state_machine(state = State, trigger = Trigger, structural_api = true)]",
        "    #[internal_transition(state = Running, trigger = Tick, action = \"count\", guard = \"below_limit\")]",
        "    #[transition(from = Running, trigger = Stop, to = Stopped)]",
        "    #[internal_transition(state = Stopped, trigger = Kick, action = \"kick\")]",
        "    #[transition(from = Stopped, trigger = Stop, to = Running, guard = \"below_limit\")]",
        "    #[transition(from = Stopped, trigger = Tick, to = Broken)]",
        "    #[state(state = Running, on_entry = \"entered\", on_exit = \"left\")]",
        "    pub struct Ticker \x7b pub env: Env \x7d",
        "    impl Ticker \x7b",
        "        fn below_limit(&self) -> bool \x7b .. \x7d",
        "        fn count(&mut self) \x7b .. \x7d",
        "        fn kick(&mut self) -> Result<(), String> \x7b .. \x7d",
        "        fn entered(&mut self) \x7b .. \x7d",
        "        fn left(&mut self) \x7b .. \x7d",
        "    \x7d",
        "\x7d"] }

def document : Sample :=
  { name := "document"
    source :=
      [
        "mod document \x7b",
        "    pub enum State \x7b Draft, Saved, Published, Archived \x7d",
        "    pub enum Trigger \x7b Save, Publish, Touch, Archive, Reopen \x7d",
        "    #[state_machine(state = State, trigger = Trigger)]",
        "    #[transition(from = Draft, trigger = Save, to = Saved, action = \"persist\")]",
        "    #[transition(from = Draft, trigger = Publish, to = Published, guard = \"approved\")]",
        "    #[transition(from = Saved, trigger = Publish, to = Published, guard = \"approved\", action = \"announce\")]",
        "    #[internal_transition(state = Saved, trigger = Touch, action = \"touch\", guard = \"approved\")]",
        "    #[transition(from = Published, trigger = Archive, to = Archived)]",
        "    #[transition(from = Archived, trigger = Reopen, to = Draft, guard = \"plain\")]",
        "    #[state(state = Draft, on_entry = \"open_draft\", on_exit = \"close_draft\")]",
        "    #[state(state = Published, on_entry = \"go_live\", on_exit = \"go_dark\")]",
        "    #[state(state = Archived, on_entry = \"shelve\")]",
        "    pub struct Document \x7b pub env: Env \x7d",
        "    impl Document \x7b",
        "        fn persist(&mut self) -> Result<(), String> \x7b .. \x7d",
        "        fn approved(&self) -> Result<bool, String> \x7b .. \x7d",
        "        fn announce(&mut self) -> Result<(), String> \x7b .. \x7d",
        "        fn touch(&mut self) -> Result<(), String> \x7b .. \x7d",
        "        fn open_draft(&mut self) \x7b .. \x7d",
        "        fn close_draft(&mut self) -> Result<(), String> \x7b .. \x7d",
        "        fn go_live(&mut self) -> Result<(), String> \x7b .. \x7d",
        "        fn go_dark(&mut self) -> Result<(), String> \x7b .. \x7d",
        "        fn shelve(&self) -> Result<(), String> \x7b .. \x7d",
        "        fn plain(&self) -> bool \x7b .. \x7d",
        "    \x7d",
        "\x7d"] }

def duplicate : Sample :=
  { name := "duplicate"
    source :=
      [
        "mod duplicate \x7b",
        "    pub enum State \x7b A, B, C \x7d",
        "    pub enum Trigger \x7b Go, Back \x7d",
        "    #[state_machine(state = State, trigger = Trigger)]",
        "    #[transition(from = A, trigger = Go, to = B, guard = \"first\")]",
        "    #[transition(from = A, trigger = Go, to = C, action = \"second\")]",
        "    #[internal_transition(state = A, trigger = Go, action = \"second\")]",
        "    #[transition(from = B, trigger = Go, to = C)]",
        "    #[transition(from = State::B, trigger = Trigger::Go, to = A)]",
        "    #[transition(from = C, trigger = Back, to = A)]",
        "    #[state(state = B, on_entry = \"enter_one\")]",
        "    #[state(state = B, on_entry = \"enter_two\", on_exit = \"exit_two\")]",
        "    pub struct Dup \x7b pub env: Env \x7d",
        "    impl Dup \x7b",
        "        fn first(&self) -> bool \x7b .. \x7d",
        "        fn second(&mut self) \x7b .. \x7d",
        "        fn enter_one(&mut self) \x7b .. \x7d",
        "        fn enter_two(&mut self) \x7b .. \x7d",
        "        fn exit_two(&mut self) \x7b .. \x7d",
        "    \x7d",
        "\x7d"] }

def numbered : Sample :=
  { name := "numbered"
    source :=
      [
        "mod numbered \x7b",
        "    pub enum State \x7b Low = 1, Mid, High = 10, Neg = -3, Zero \x7d",
        "    pub enum Trigger \x7b Up = 0x10, Down \x7d",
        "    #[state_machine(state = State, trigger = Trigger, structural_api)]",
        "    #[transition(from = 1, trigger = 16, to = 0x2)]",
        "    #[transition(from = 2u8, trigger = \"0x10\", to = \"High\")]",
        "    #[transition(from = State::High, trigger = 17, to = -3)]",
        "    #[transition(from = Self::Neg, trigger = Up, to = (-2))]",
        "    #[transition(from = \"-2\", trigger = Down, to = 0b1)]",
        "    pub struct Numbered;",
        "\x7d"] }

def mute : Sample :=
  { name := "mute"
    source :=
      [
        "mod mute \x7b",
        "    pub enum State \x7b Only \x7d",
        "    pub enum Trigger \x7b Never \x7d",
        "    #[state_machine(state = State, trigger = Trigger, structural_api)]",
        "    pub struct Mute;",
        "\x7d"] }

def basicForced : Sample :=
  { name := "basic_forced"
    source :=
      [
        "mod basic_forced \x7b",
        "    pub enum State \x7b A, B \x7d",
        "    pub enum Trigger \x7b Go, Back \x7d",
        "    #[state_machine(state = State, trigger = Trigger, variant = \"basic\")]",
        "    #[transition(from = A, trigger = Go, to = B, guard = \"ok\")]",
        "    #[transition(from = B, trigger = Back, to = A)]",
        "    pub struct BasicForced \x7b pub env: Env \x7d",
        "    impl BasicForced \x7b",
        "        fn ok(&self) -> bool \x7b .. \x7d",
        "    \x7d",
        "\x7d"] }

def spawner : Sample :=
  { name := "spawner"
    source :=
      [
        "mod spawner \x7b",
        "    pub enum State \x7b A, B \x7d",
        "    pub enum Trigger \x7b Go, Back \x7d",
        "    #[state_machine(state = State, trigger = Trigger)]",
        "    #[transition(from = A, trigger = Go, to = B, action = \"spawn\")]",
        "    #[transition(from = B, trigger = Back, to = A, action = \"tidy\")]",
        "    #[state(state = B, on_exit = \"spawn_exit\")]",
        "    pub struct Spawner \x7b pub env: Env \x7d",
        "    impl Spawner \x7b",
        "        fn spawn(&mut self) -> JoinHandle \x7b .. \x7d",
        "        fn spawn_exit(&self) -> JoinHandle \x7b .. \x7d",
        "        fn tidy(&mut self) \x7b .. \x7d",
        "    \x7d",
        "\x7d"] }

def blind : Sample :=
  { name := "blind"
    source :=
      [
        "mod blind \x7b",
        "    pub enum State \x7b A, B \x7d",
        "    pub enum Trigger \x7b Go, Back \x7d",
        "    #[state_machine(state = State, trigger = Trigger, variant = Basic)]",
        "    #[transition(from = A, trigger = Go, to = B, guard = \"needs\")]",
        "    #[transition(from = B, trigger = Back, to = A, guard = \"maybe\")]",
        "    #[transition(from = B, trigger = Go, to = A)]",
        "    #[state(state = A, on_entry = \"in_a\")]",
        "    pub struct Blind \x7b pub env: Env \x7d",
        "    impl Blind \x7b",
        "        fn needs(&self, p: &Num) -> bool \x7b .. \x7d",
        "        fn maybe(&self, p: Option<&Num>) -> bool \x7b .. \x7d",
        "        fn in_a(&mut self) \x7b .. \x7d",
        "    \x7d",
        "\x7d"] }

def collide : Sample :=
  { name := "collide"
    source :=
      [
        "mod collide \x7b",
        "    pub enum State \x7b A, B \x7d",
        "    pub enum Trigger \x7b Go \x7d",
        "    #[state_machine(state = State, trigger = Trigger)]",
        "    #[transition(from = A, trigger = Go, to = B, action = \"act\")]",
        "    pub struct Collide \x7b pub initial_state: u8, pub env: Env \x7d",
        "    impl Collide \x7b",
        "        fn act(&mut self) \x7b .. \x7d",
        "    \x7d",
        "\x7d"] }

def raw : Sample :=
  { name := "raw"
    source :=
      [
        "mod raw \x7b",
        "    pub enum State \x7b r#match, r#type, Plain \x7d",
        "    pub enum Trigger \x7b r#move, Go \x7d",
        "    #[state_machine(state = State, trigger = Trigger, structural_api)]",
        "    #[transition(from = r#match, trigger = r#move, to = r#type, guard = \"r#fn\")]",
        "    #[transition(from = r#type, trigger = Go, to = Plain, action = r#loop)]",
        "    #[transition(from = Plain, trigger = r#move, to = r#match)]",
        "    pub struct Raw \x7b pub env: Env \x7d",
        "    impl Raw \x7b",
        "        fn r#fn(&self) -> Result<bool, String> \x7b .. \x7d",
        "        fn r#loop(&mut self) -> Result<(), String> \x7b .. \x7d",
        "    \x7d",
        "\x7d"] }

end Statewright.Simulation.Sample
