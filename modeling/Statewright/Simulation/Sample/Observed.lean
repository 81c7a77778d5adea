import Statewright.Simulation.Sample.Basic

/-!
# Observed and asynchronous machines

Machines with extensions, and machines whose callbacks are awaited. The texts are for the driver of
trials; no theorem is about them.
-/

namespace Statewright.Simulation.Sample

def worker : Sample :=
  { name := "worker"
    source :=
      [
        "mod worker \x7b",
        "    pub enum State \x7b Idle, Busy, Dead \x7d",
        "    pub enum Trigger \x7b Go, Stop, Tick \x7d",
        "    #[state_machine(state = State, trigger = Trigger, extensions = true)]",
        "    #[transition(from = Idle, trigger = Go, to = Busy, guard = \"enabled\", action = \"begin\")]",
        "    #[transition(from = Busy, trigger = Stop, to = Idle)]",
        "    #[internal_transition(state = Busy, trigger = Tick, action = \"tick\", guard = \"maybe\")]",
        "    #[transition(from = Busy, trigger = Go, to = Dead, action = \"die\")]",
        "    #[state(state = Busy, on_exit = \"leave\")]",
        "    pub struct Worker \x7b pub env: Env \x7d",
        "    impl Worker \x7b",
        "        fn enabled(&self) -> bool \x7b .. \x7d",
        "        fn begin(&mut self) \x7b .. \x7d",
        "        fn tick(&mut self) -> Result<(), String> \x7b .. \x7d",
        "        fn maybe(&self) -> Result<bool, String> \x7b .. \x7d",
        "        fn die(&mut self) -> Result<(), String> \x7b .. \x7d",
        "        fn leave(&mut self) -> Result<(), String> \x7b .. \x7d",
        "    \x7d",
        "\x7d"] }

def forcedExt : Sample :=
  { name := "forced_ext"
    source :=
      [
        "mod forced_ext \x7b",
        "    pub enum State \x7b A, B \x7d",
        "    pub enum Trigger \x7b Go \x7d",
        "    #[state_machine(state = State, trigger = Trigger, variant = \"WithExtensions\")]",
        "    #[transition(from = A, trigger = Go, to = B, guard = \"g\")]",
        "    #[transition(from = B, trigger = Go, to = A)]",
        "    pub struct ForcedExt \x7b pub env: Env \x7d",
        "    impl ForcedExt \x7b",
        "        fn g(&self) -> bool \x7b .. \x7d",
        "    \x7d",
        "\x7d"] }

def blindExt : Sample :=
  { name := "blind_ext"
    source :=
      [
        "mod blind_ext \x7b",
        "    pub enum State \x7b A, B \x7d",
        "    pub enum Trigger \x7b Go \x7d",
        "    #[state_machine(state = State, trigger = Trigger, variant = \"WithExtensions\")]",
        "    #[transition(from = A, trigger = Go, to = B, guard = \"g\")]",
        "    #[transition(from = B, trigger = Go, to = A)]",
        "    pub struct BlindExt \x7b pub env: Env \x7d",
        "    impl BlindExt \x7b",
        "        fn g(&self, p: &Num) -> Result<bool, String> \x7b .. \x7d",
        "    \x7d",
        "\x7d"] }

def full : Sample :=
  { name := "full"
    source :=
      [
        "mod full \x7b",
        "    pub enum State \x7b A, B \x7d",
        "    pub enum Trigger \x7b Go, Back \x7d",
        "    #[state_machine(state = State, trigger = Trigger, payload = Num, extensions)]",
        "    #[transition(from = A, trigger = Go, to = B, guard = \"g\", action = \"act\")]",
        "    #[transition(from = B, trigger = Back, to = A, action = \"undo\")]",
        "    #[state(state = B, on_entry = \"enter\", on_exit = \"leave\")]",
        "    pub struct FullOne \x7b pub env: Env \x7d",
        "    impl FullOne \x7b",
        "        fn g(&self, p: &Num) -> bool \x7b .. \x7d",
        "        fn act(&mut self, p: Option<&Num>) \x7b .. \x7d",
        "        fn undo(&mut self, p: &Num) -> Result<(), String> \x7b .. \x7d",
        "        fn enter(&mut self) -> Result<(), String> \x7b .. \x7d",
        "        fn leave(&mut self, p: &Num) \x7b .. \x7d",
        "    \x7d",
        "\x7d"] }

def fullMulti : Sample :=
  { name := "full_multi"
    source :=
      [
        "mod full_multi \x7b",
        "    pub enum State \x7b A, B \x7d",
        "    pub enum Trigger \x7b Go, Back \x7d",
        "    #[state_machine(state = State, trigger = Trigger, extensions, structural_api, variant = Full)]",
        "    #[payload_type(ty = Text, trigger = Go)]",
        "    #[transition(from = A, trigger = Go, to = B, guard = \"g\", action = \"act\")]",
        "    #[transition(from = B, trigger = Back, to = A)]",
        "    pub struct FullMulti \x7b pub env: Env \x7d",
        "    impl FullMulti \x7b",
        "        fn g(&self, p: Option<&Text>) -> bool \x7b .. \x7d",
        "        fn act(&mut self, p: &Text) \x7b .. \x7d",
        "    \x7d",
        "\x7d"] }

def loader : Sample :=
  { name := "loader"
    source :=
      [
        "mod loader \x7b",
        "    pub enum State \x7b Idle, Loaded, Failed \x7d",
        "    pub enum Trigger \x7b Load, Clear, Fail \x7d",
        "    #[state_machine(state = State, trigger = Trigger)]",
        "    #[transition(from = Idle, trigger = Load, to = Loaded, guard = \"ready\", action = \"fetch\")]",
        "    #[transition(from = Loaded, trigger = Clear, to = Idle, action = \"clear\")]",
        "    #[transition(from = Loaded, trigger = Fail, to = Failed, guard = \"sync_guard\", action = \"boom\")]",
        "    #[transition(from = Failed, trigger = Clear, to = Idle, guard = \"fallible_guard\")]",
        "    #[state(state = Loaded, on_entry = \"announce\", on_exit = \"depart\")]",
        "    pub struct Loader \x7b pub env: Env \x7d",
        "    impl Loader \x7b",
        "        async fn ready(&self) -> bool \x7b .. \x7d",
        "        async fn fetch(&mut self, cancel: CancellationToken) -> Result<(), String> \x7b .. \x7d",
        "        fn clear(&mut self) \x7b .. \x7d",
        "        fn sync_guard(&self, cancel: &CancellationToken) -> bool \x7b .. \x7d",
        "        fn boom(&mut self) -> impl Future<Output = Result<(), String>> \x7b .. \x7d",
        "        fn fallible_guard(&self, cancel: CancellationToken) -> std::pin::Pin<Box<dyn Future<Output = Result<bool, String>> + '_>> \x7b .. \x7d",
        "        async fn announce(&mut self, cancel: &CancellationToken) \x7b .. \x7d",
        "        fn depart(&mut self) -> std::pin::Pin<Box<dyn Future<Output = ()> + '_>> \x7b .. \x7d",
        "    \x7d",
        "\x7d"] }

def asyncPay : Sample :=
  { name := "async_pay"
    source :=
      [
        "mod async_pay \x7b",
        "    pub enum State \x7b A, B \x7d",
        "    pub enum Trigger \x7b Go, Back \x7d",
        "    #[state_machine(state = State, trigger = Trigger, payload = Text)]",
        "    #[transition(from = A, trigger = Go, to = B, guard = \"g\", action = \"act\")]",
        "    #[transition(from = B, trigger = Back, to = A, action = \"undo\")]",
        "    #[internal_transition(state = B, trigger = Go, action = \"act\")]",
        "    #[state(state = A, on_exit = \"bye\")]",
        "    pub struct AsyncPay \x7b pub env: Env \x7d",
        "    impl AsyncPay \x7b",
        "        async fn g(&self, p: &Text, cancel: &CancellationToken) -> bool \x7b .. \x7d",
        "        async fn act(&mut self, p: &Text, cancel: CancellationToken) \x7b .. \x7d",
        "        fn undo(&mut self, p: Option<&Text>) \x7b .. \x7d",
        "        async fn bye(&mut self, p: Option<&Text>) -> Result<(), String> \x7b .. \x7d",
        "    \x7d",
        "\x7d"] }

def asyncFull : Sample :=
  { name := "async_full"
    source :=
      [
        "mod async_full \x7b",
        "    pub enum State \x7b A, B, C \x7d",
        "    pub enum Trigger \x7b Go, Back \x7d",
        "    #[state_machine(state = State, trigger = Trigger, extensions = true, structural_api)]",
        "    #[payload_type(ty = Num, trigger = Go)]",
        "    #[transition(from = A, trigger = Go, to = B, guard = \"g\", action = \"act\")]",
        "    #[transition(from = B, trigger = Go, to = C)]",
        "    #[transition(from = C, trigger = Back, to = A, guard = \"s\")]",
        "    #[state(state = B, on_entry = \"enter\")]",
        "    pub struct AsyncFull \x7b pub env: Env \x7d",
        "    impl AsyncFull \x7b",
        "        fn g(&self) -> impl Future<Output = Result<bool, String>> \x7b .. \x7d",
        "        async fn act(&mut self, p: &Num) \x7b .. \x7d",
        "        fn s(&self) -> bool \x7b .. \x7d",
        "        async fn enter(&mut self, cancel: CancellationToken) -> Result<(), String> \x7b .. \x7d",
        "    \x7d",
        "\x7d"] }

end Statewright.Simulation.Sample
