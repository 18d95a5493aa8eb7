/-!
# Default settings

The settings that hold when nothing else is given, as a settings document, with the presets that
come along.
-/

namespace FogDispatch.Settings

def defaultLines : List String := [
  "output_dir = \"results\"",
  "until = \"no_events\"",
  "[experiment]",
  "name = \"fogsched\"",
  "strategy = \"placement\"",
  "episodes = 1",
  "random_seeds = [42]",
  "respect_job_constraints = true",
  "[dataset]",
  "path = \"datasets/tsp\"",
  "runtime_scale = 1.0",
  "[topology]",
  "seed = \"stripy zebra\"",
  "cloud_nodes = 0",
  "fog_nodes = 30",
  "[topology.cloud]",
  "mips = 146880.0",
  "ram = 32768.0",
  "storage = 122880.0",
  "busy_power = 222.0",
  "idle_power = 52.0",
  "[[topology.fog_catalogue]]",
  "mips = 93760.0",
  "ram = 4096.0",
  "storage = 131072.0",
  "busy_power = 245.0",
  "idle_power = 88.4",
  "[[topology.fog_catalogue]]",
  "mips = 93760.0",
  "ram = 2048.0",
  "storage = 131072.0",
  "busy_power = 245.0",
  "idle_power = 88.4",
  "[[topology.fog_catalogue]]",
  "mips = 7320.0",
  "ram = 4096.0",
  "storage = 122880.0",
  "busy_power = 117.0",
  "idle_power = 86.0",
  "[[topology.fog_catalogue]]",
  "mips = 7320.0",
  "ram = 2048.0",
  "storage = 122880.0",
  "busy_power = 117.0",
  "idle_power = 86.0",
  "[topology.gateway]",
  "mips = 5320.0",
  "ram = 2048.0",
  "storage = 65536.0",
  "busy_power = 135.0",
  "idle_power = 93.7",
  "[network]",
  "fog_latency = 0.05",
  "fog_upload_bandwidth = 1000.0",
  "fog_download_bandwidth = 1000.0",
  "cloud_latency = 0.1",
  "cloud_upload_bandwidth = 200.0",
  "cloud_download_bandwidth = 200.0",
  "[gateway]",
  "real_mips = 8710.0",
  "charge_compute_time = true",
  "[policy]",
  "address = \"127.0.0.1:5000\"",
  "strategy = \"TP_FIFO\"",
  "max_attempts = 30",
  "attempt_timeout_ms = 30000",
  "framing = \"length_prefixed\"",
  "priorities_quantity = 5",
  "[logging]",
  "span_events = []",
  "[logging.filter]",
  "directives = \"info\"",
  "from_env = true",
  "[logging.term]",
  "enabled = true",
  "name = \"stderr\"",
  "[logging.file]",
  "enabled = false",
  "directory = \"logs\"",
  "name = \"fogsched.log\"",
  "[presets.joint.experiment]",
  "strategy = \"scheduling_and_placement\"",
  "[presets.joint.policy]",
  "strategy = \"TSP_DRL\"",
  "[presets.drl.policy]",
  "strategy = \"TP_DRL\"",
  "[presets.drl.policy.drl]",
  "load_pretrained_model = false",
  "training = true",
  "save_final_model = true",
  "[presets.sweep.experiment]",
  "fog_nodes = [10, 20, 30]",
  "[[presets.sweep.experiment.strategies]]",
  "kind = \"placement\"",
  "policy = \"TP_FIFO\"",
  "[[presets.sweep.experiment.strategies]]",
  "kind = \"placement\"",
  "policy = \"TP_DRL\"",
  "[[presets.sweep.experiment.strategies]]",
  "kind = \"scheduling_and_placement\"",
  "policy = \"TSP_FIFO\"",
  "[[presets.sweep.experiment.strategies]]",
  "kind = \"scheduling_and_placement\"",
  "policy = \"TSP_DRL\"",
  "[presets.cloud.topology]",
  "cloud_nodes = 1"]

def defaultDocument : String := String.intercalate "\n" defaultLines ++ "\n"

end FogDispatch.Settings
